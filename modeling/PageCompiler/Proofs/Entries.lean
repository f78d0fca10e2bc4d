import Mathlib.Data.List.Nodup
import PageCompiler.Entries

/-!
# Ordered entries after a change

What writing and leaving out an entry do to the keys, to the values that are read and to the entries under
all other keys. Only the entry that is meant changes; a key that is written again keeps its place.
-/

namespace PageCompiler.Entries

variable {α : Type} {entries pairs : Entries α} {key other : Text} {value : α}

/-! ## Reading -/

theorem mem_of_get? (found : entries.get? key = some value) : (key, value) ∈ entries := by
  induction entries with
  | nil => cases found
  | cons entry rest ih =>
    obtain ⟨k, current⟩ := entry
    rw [get?] at found
    split at found
    · next here =>
      cases here
      cases found
      exact List.mem_cons_self
    · exact List.mem_cons_of_mem _ (ih found)

theorem get?_of_mem (distinct : entries.keys.Nodup) (member : (key, value) ∈ entries) :
    entries.get? key = some value := by
  induction entries with
  | nil => cases member
  | cons entry rest ih =>
    obtain ⟨k, current⟩ := entry
    obtain ⟨fresh, distinct⟩ := List.nodup_cons.mp distinct
    rw [get?]
    rcases List.mem_cons.mp member with same | member
    · cases same
      exact if_pos rfl
    · have other : k ≠ key := fun same => fresh (List.mem_map.mpr ⟨_, member, same.symm⟩)
      rw [if_neg other]
      exact ih distinct member

theorem mem_keys_of_get? (found : entries.get? key = some value) : key ∈ entries.keys :=
  List.mem_map.mpr ⟨_, mem_of_get? found, rfl⟩

theorem get?_of_fresh (fresh : key ∉ entries.keys) : entries.get? key = none := by
  cases found : entries.get? key with
  | none => rfl
  | some value => exact absurd (mem_keys_of_get? found) fresh

theorem get?_append (first second : Entries α) (key : Text) :
    get? key (first ++ second) = (first.get? key).or (second.get? key) := by
  induction first with
  | nil => rfl
  | cons entry rest ih =>
    obtain ⟨k, current⟩ := entry
    rw [List.cons_append, get?, get?]
    split
    · rfl
    · exact ih

theorem get?_map {β : Type} (change : α → β) (entries : Entries α) (key : Text) :
    get? key (entries.map fun entry => (entry.1, change entry.2)) = (entries.get? key).map change := by
  induction entries with
  | nil => rfl
  | cons entry rest ih =>
    rw [List.map_cons, get?, get?]
    split
    · rfl
    · exact ih

/-! ## Writing -/

theorem mem_put {entry : Text × α} (member : entry ∈ entries.put key value) :
    entry ∈ entries ∨ entry = (key, value) := by
  induction entries with
  | nil => exact Or.inr (List.mem_singleton.mp member)
  | cons first rest ih =>
    rw [put] at member
    split at member
    · next same =>
      rcases List.mem_cons.mp member with rfl | later
      · exact Or.inr (by rw [same])
      · exact Or.inl (List.mem_cons_of_mem _ later)
    · rcases List.mem_cons.mp member with rfl | later
      · exact Or.inl List.mem_cons_self
      · exact (ih later).imp_left (List.mem_cons_of_mem _)

theorem nodup_keys_put (distinct : entries.keys.Nodup) (key : Text) (value : α) :
    (entries.put key value).keys.Nodup := by
  rw [keys_put]
  split
  · exact distinct
  · next fresh =>
    rw [List.nodup_append]
    refine ⟨distinct, List.nodup_singleton key, ?_⟩
    intro old member new last
    rw [List.mem_singleton.mp last]
    rintro rfl
    exact fresh member

theorem mem_keys_put (member : other ∈ (entries.put key value).keys) :
    other = key ∨ other ∈ entries.keys := by
  rw [keys_put] at member
  split at member
  · exact Or.inr member
  · rcases List.mem_append.mp member with old | new
    · exact Or.inr old
    · exact Or.inl (List.mem_singleton.mp new)

theorem filter_put (keep : Text → Bool) (key : Text) (value : α) (entries : Entries α) :
    (entries.put key value).filter (fun entry => keep entry.1) =
      if keep key then put key value (entries.filter fun entry => keep entry.1)
      else entries.filter fun entry => keep entry.1 := by
  induction entries with
  | nil => cases kept : keep key <;> simp [put, kept]
  | cons entry rest ih =>
    obtain ⟨k, old⟩ := entry
    by_cases same : k = key
    · subst same
      cases kept : keep k <;> simp [put, kept]
    · cases kept : keep key <;> cases keeps : keep k <;> simp_all [put]

theorem put_of_get? (found : entries.get? key = some value) : entries.put key value = entries := by
  induction entries with
  | nil => simp [get?] at found
  | cons entry rest ih =>
    obtain ⟨k, old⟩ := entry
    by_cases same : k = key
    · simp_all [get?, put]
    · simp_all [get?, put]

theorem put_of_fresh (fresh : key ∉ entries.keys) (value : α) :
    entries.put key value = entries ++ [(key, value)] := by
  induction entries with
  | nil => rfl
  | cons entry rest ih =>
    rw [keys, List.map_cons, List.mem_cons, not_or] at fresh
    rw [put, if_neg (Ne.symm fresh.1), ih fresh.2]
    rfl

theorem foldl_put (distinct : (entries ++ pairs).keys.Nodup) :
    pairs.foldl (fun entries (key, value) => entries.put key value) entries = entries ++ pairs := by
  induction pairs generalizing entries with
  | nil => exact (List.append_nil entries).symm
  | cons pair rest ih =>
    obtain ⟨key, value⟩ := pair
    have fresh : key ∉ entries.keys := by
      rw [keys, List.map_append, List.nodup_append] at distinct
      exact fun member => distinct.2.2 key member key List.mem_cons_self rfl
    rw [List.append_cons] at distinct ⊢
    rw [← put_of_fresh fresh] at distinct ⊢
    exact ih distinct

/-- Pairs with different keys are entries as they stand. -/
theorem ofPairs_of_nodup (distinct : pairs.keys.Nodup) : ofPairs pairs = pairs :=
  foldl_put distinct

/-- Pairs that are written one after another: every entry was there or is one of them. -/
theorem mem_foldl_put {entry : Text × α}
    (member : entry ∈ pairs.foldl (fun entries (key, value) => entries.put key value) entries) :
    entry ∈ entries ∨ entry ∈ pairs := by
  induction pairs generalizing entries with
  | nil => exact Or.inl member
  | cons pair rest ih =>
    rcases ih member with written | later
    · rcases mem_put written with old | rfl
      · exact Or.inl old
      · exact Or.inr List.mem_cons_self
    · exact Or.inr (List.mem_cons_of_mem _ later)

theorem nodup_keys_foldl_put (distinct : entries.keys.Nodup) :
    (pairs.foldl (fun entries (key, value) => entries.put key value) entries).keys.Nodup := by
  induction pairs generalizing entries with
  | nil => exact distinct
  | cons pair rest ih => exact ih (nodup_keys_put distinct pair.1 pair.2)

/-! ## Leaving out -/

theorem keys_erase_sublist (entries : Entries α) (key : Text) :
    (entries.erase key).keys.Sublist entries.keys := by
  induction entries with
  | nil => exact List.Sublist.refl _
  | cons entry rest ih =>
    obtain ⟨first, value⟩ := entry
    unfold erase
    split
    · exact List.sublist_cons_self _ _
    · exact ih.cons_cons first

theorem erase_of_fresh (fresh : key ∉ entries.keys) : entries.erase key = entries := by
  induction entries with
  | nil => rfl
  | cons entry rest ih =>
    rw [keys, List.map_cons, List.mem_cons, not_or] at fresh
    rw [erase, if_neg (Ne.symm fresh.1), ih fresh.2]

/-- Leaving out one entry takes away the key, when no key is there twice, and nothing else. -/
theorem erase_eq_filter (distinct : entries.keys.Nodup) (key : Text) :
    entries.erase key = entries.filter fun entry => entry.1 ≠ key := by
  induction entries with
  | nil => rfl
  | cons entry rest ih =>
    obtain ⟨k, current⟩ := entry
    obtain ⟨fresh, distinct⟩ := List.nodup_cons.mp distinct
    rw [erase]
    split
    · next here =>
      subst here
      have apart : ∀ entry ∈ rest, entry.1 ≠ k := by
        rintro entry member rfl
        exact fresh (List.mem_map.mpr ⟨entry, member, rfl⟩)
      rw [List.filter_cons_of_neg (by simp), List.filter_eq_self.mpr (by simpa using apart)]
    · next elsewhere => rw [List.filter_cons_of_pos (by simpa using elsewhere), ih distinct]

theorem get?_erase_self (distinct : entries.keys.Nodup) : (entries.erase key).get? key = none := by
  apply get?_of_fresh
  rw [erase_eq_filter distinct]
  intro member
  obtain ⟨entry, kept, rfl⟩ := List.mem_map.mp member
  simp at kept

end PageCompiler.Entries
