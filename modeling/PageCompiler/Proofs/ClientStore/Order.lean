import PageCompiler.ClientStore
import PageCompiler.Proofs.Json.Agreement

/-!
# Arranged values

To list the members of an object in another order takes none away and adds none. Arranged values that agree
in order come from values that agree up to the order of members, and values that agree up to that order
agree in it too if they list the same keys in it.
-/

namespace PageCompiler.ClientStore

open Json

variable {compare : Number → Number → Bool} {numbers : Number → Bool}

theorem listed_perm {α : Type} (members : Entries α) : (listed members).Perm members :=
  List.perm_insertionSort _ members

theorem arrangedItems_eq (items : List Value) : arrangedItems items = items.map arranged := by
  induction items with
  | nil => rfl
  | cons item rest ih => rw [arrangedItems, ih, List.map_cons]

theorem arrangedMembers_eq (members : List (Text × Value)) :
    arrangedMembers members = members.map fun member => (member.1, arranged member.2) := by
  induction members with
  | nil => rfl
  | cons member rest ih => rw [arrangedMembers, ih, List.map_cons]

theorem arranged_array (items : List Value) : arranged (.array items) = .array (items.map arranged) := by
  rw [arranged, arrangedItems_eq]

theorem arranged_object (members : List (Text × Value)) :
    arranged (.object members) = .object (listed (members.map fun member => (member.1, arranged member.2))) := by
  rw [arranged, arrangedMembers_eq]

/-- What an arranged object lists is a member with its value arranged. -/
theorem mem_listed_iff {members : List (Text × Value)} {entry : Text × Value} :
    entry ∈ listed (members.map fun member => (member.1, arranged member.2)) ↔
      ∃ member ∈ members, (member.1, arranged member.2) = entry := by
  rw [(listed_perm _).mem_iff, List.mem_map]

theorem isSound_arranged {value : Value} (sound : value.isSound numbers = true) :
    (arranged value).isSound numbers = true := by
  induction value using Value.induction with
  | step value ih =>
    cases value with
    | null => exact sound
    | bool => exact sound
    | number => exact sound
    | string => exact sound
    | array items =>
      rw [arranged_array]
      rw [Value.isSound_array_iff] at sound ⊢
      exact List.forall_mem_map.mpr fun item inside => ih item inside (sound item inside)
    | object members =>
      rw [arranged_object]
      rw [Value.isSound_object_iff] at sound ⊢
      constructor
      · have keys : (Entries.keys (members.map fun member => (member.1, arranged member.2))) =
            Entries.keys members := by
          rw [Entries.keys, Entries.keys, List.map_map]
          rfl
        rw [← keys] at sound
        exact ((listed_perm _).map Prod.fst).nodup_iff.mpr sound.1
      · intro entry inside
        obtain ⟨member, listed, rfl⟩ := mem_listed_iff.mp inside
        exact ih member.2 (Value.mem_parts_of_mem listed) (sound.2 member listed)

theorem sameKind_of_arranged {a b : Value} (kinds : Value.SameKind (arranged a) (arranged b)) :
    Value.SameKind a b := by
  cases a <;> cases b <;> first | constructor | (simp only [arranged] at kinds; cases kinds)

/-- Values whose arranged forms agree are the same. -/
theorem same_of_alike_arranged {a b : Value} (sound : b.isSound numbers = true)
    (agree : (arranged a).alike Number.same (arranged b) = true) : a.same b = true := by
  induction a using Value.induction generalizing b with
  | step a ih =>
    cases sameKind_of_arranged (Value.sameKind_of_alike agree) with
    | null => rfl
    | bool a b => exact agree
    | string a b => exact agree
    | number a b => exact agree
    | array items others =>
      rw [Value.isSound_array_iff] at sound
      rw [arranged_array, arranged_array, Value.alike_array_iff, List.forall₂_map_left_iff,
        List.forall₂_map_right_iff] at agree
      rw [Value.same_array_iff]
      exact forall₂_imp_of_mem agree fun a inside b there => ih a inside (sound b there)
    | object members others =>
      rw [Value.isSound_object_iff] at sound
      rw [arranged_object, arranged_object, Value.alike_object_iff] at agree
      have length := agree.length_eq
      rw [(listed_perm _).length_eq, (listed_perm _).length_eq, List.length_map, List.length_map] at length
      refine Value.same_object_iff.mpr ⟨length, fun member listed => ?_⟩
      obtain ⟨entry, inside, key, agree⟩ :=
        exists_of_forall₂ agree (mem_listed_iff.mpr ⟨member, listed, rfl⟩)
      obtain ⟨other, there, rfl⟩ := mem_listed_iff.mp inside
      refine ⟨other.2, ?_, ih member.2 (Value.mem_parts_of_mem listed) (sound.2 other there) agree⟩
      rw [show member.1 = other.1 from key]
      exact Entries.get?_of_mem sound.1 there

/-- Values that are the same agree in order, with the numbers of the data format, once they agree in order with
any comparison of numbers. -/
theorem alike_arranged_of_same {a b : Value} (sound : b.isSound numbers = true) (same : a.same b = true)
    (agree : (arranged a).alike compare (arranged b) = true) :
    (arranged a).alike Number.same (arranged b) = true := by
  induction a using Value.induction generalizing b with
  | step a ih =>
    cases Value.sameKind_of_same same with
    | null => rfl
    | bool a b => exact same
    | string a b => exact same
    | number a b => exact same
    | array items others =>
      rw [Value.isSound_array_iff] at sound
      rw [arranged_array, arranged_array, Value.alike_array_iff, List.forall₂_map_left_iff,
        List.forall₂_map_right_iff] at agree ⊢
      rw [Value.same_array_iff] at same
      have both := same.mp (fun _ _ same agree => And.intro same agree) agree
      exact forall₂_imp_of_mem both fun a inside b there both =>
        ih a inside (sound b there) both.1 both.2
    | object members others =>
      rw [Value.isSound_object_iff] at sound
      rw [arranged_object, arranged_object, Value.alike_object_iff] at agree ⊢
      rw [Value.same_object_iff] at same
      refine forall₂_imp_of_mem agree fun entry inside partner there agree => ⟨agree.1, ?_⟩
      obtain ⟨member, listed, rfl⟩ := mem_listed_iff.mp inside
      obtain ⟨other, listedOther, rfl⟩ := mem_listed_iff.mp there
      obtain ⟨found, there, same⟩ := same.2 member listed
      have key : member.1 = other.1 := agree.1
      rw [key, Entries.get?_of_mem sound.1 listedOther] at there
      cases there
      exact ih member.2 (Value.mem_parts_of_mem listed) (sound.2 other listedOther) same agree.2

end PageCompiler.ClientStore
