import Mathlib.Data.List.Forall2
import PageCompiler.Json.Record

/-!
# Items, lists and records

A field that may be given as one item or as a list of items is read without doubt if no list of items can be
read as an item, since one item is tried first. The trees of the other fields of a record do not depend on
what one field holds, in an object as in an array.
-/

namespace PageCompiler

open Json (Tree)

/-! ## Items and lists of items -/

namespace Json.Record

variable {α : Type} {read : Tree → Option α} {tree : Tree} {item : α} {trees : List Tree} {items : List α}

/-- No list of items is taken for an item. -/
def Apart (read : Tree → Option α) : Prop :=
  ∀ trees items, List.Forall₂ (fun tree item => read tree = some item) trees items →
    read (.array trees) = none

theorem list_of_forall₂ (each : List.Forall₂ (fun tree item => read tree = some item) trees items) :
    list read (.array trees) = some items := by
  rw [list]
  induction each with
  | nil => rfl
  | cons first _ ih =>
    rw [List.mapM_cons, first, ih]
    rfl

theorem oneOrMany_item (found : read tree = some item) : oneOrMany read tree = some [item] := by
  rw [oneOrMany, found]

theorem oneOrMany_list (apart : Apart read)
    (each : List.Forall₂ (fun tree item => read tree = some item) trees items) :
    oneOrMany read (.array trees) = some items := by
  rw [oneOrMany, apart trees items each]
  exact list_of_forall₂ each

theorem apart_text : Apart text :=
  fun _ _ _ => rfl

theorem apart_textTable : Apart textTable :=
  fun _ _ _ => rfl

/-! ## Records with an open field -/

/-- A record in which the tree of one field is left open. -/
inductive OpenRecord where
  | object (before after : List (Option Text × Tree))
  | array (before after : List Tree)

namespace OpenRecord

/-- The record with a tree in its open field. -/
def fill (name : Text) (tree : Tree) : OpenRecord → Tree
  | .object before after => .object (before ++ (some name, tree) :: after)
  | .array before after => .array (before ++ tree :: after)

/-- In an array, the open field stands at the position of the field. -/
def Fits (position : Nat) : OpenRecord → Prop
  | .object _ _ => True
  | .array before _ => before.length = position

end OpenRecord

variable {earlier later : Shape} {name other : Text} {presence : Presence}
  {before after : List (Option Text × Tree)}

theorem memberOf_other (apart : other ≠ name) (presence : Presence) (tree : Tree) :
    memberOf other presence (before ++ (some name, tree) :: after) =
      memberOf other presence (before ++ after) := by
  have passed : ¬(some name = some other) := fun same => apart (Option.some.inj same).symm
  simp only [memberOf, List.filter_append, List.filter_cons, decide_eq_false passed]
  rfl

/-- An open field is read from what is put there, unless it is written in another place too. -/
theorem memberOf_own (presence : Presence) (tree : Tree) :
    memberOf name presence (before ++ (some name, tree) :: after) =
      if (before ++ after).any fun member => member.1 = some name then none else some (some tree) := by
  have here : decide ((some name, tree).1 = some name) = true := decide_eq_true rfl
  rw [memberOf, List.filter_append, List.filter_cons, if_pos here, List.any_append]
  cases first : before.filter fun member => member.1 = some name with
  | nil =>
    rw [List.any_eq_false.mpr (List.filter_eq_nil_iff.mp first), Bool.false_or]
    cases second : after.filter fun member => member.1 = some name with
    | nil =>
      rw [List.any_eq_false.mpr (List.filter_eq_nil_iff.mp second)]
      rfl
    | cons member rest =>
      have written := List.mem_filter.mp (second ▸ List.mem_cons_self)
      rw [List.any_eq_true.mpr ⟨member, written⟩]
      rfl
  | cons member rest =>
    have written := List.mem_filter.mp (first ▸ List.mem_cons_self)
    rw [List.any_eq_true.mpr ⟨member, written⟩, Bool.true_or, if_pos rfl]
    cases rest <;> rfl

theorem mapM_memberOf_other {shape : Shape} (apart : ∀ field ∈ shape, field.1 ≠ name) (tree : Tree) :
    (shape.mapM fun (other, presence) => memberOf other presence (before ++ (some name, tree) :: after)) =
      shape.mapM fun (other, presence) => memberOf other presence (before ++ after) := by
  induction shape with
  | nil => rfl
  | cons field rest ih =>
    rw [List.forall_mem_cons] at apart
    simp only [List.mapM_cons, memberOf_other apart.1, ih apart.2]

theorem ofMembers_append (earlierApart : ∀ field ∈ earlier, field.1 ≠ name)
    (laterApart : ∀ field ∈ later, field.1 ≠ name) (tree : Tree) :
    ofMembers (before ++ (some name, tree) :: after) (earlier ++ (name, presence) :: later) =
      if (before ++ after).all fun member => member.1.isSome then do
        let front ← earlier.mapM fun (other, presence) => memberOf other presence (before ++ after)
        let own ← memberOf name presence (before ++ (some name, tree) :: after)
        let back ← later.mapM fun (other, presence) => memberOf other presence (before ++ after)
        return front ++ own :: back
      else none := by
  have sound : (before ++ (some name, tree) :: after).all (fun member => member.1.isSome) =
      (before ++ after).all fun member => member.1.isSome := by
    rw [List.all_append, List.all_cons, List.all_append]
    rfl
  rw [ofMembers, sound, List.mapM_append, List.mapM_cons, mapM_memberOf_other earlierApart,
    mapM_memberOf_other laterApart]
  simp only [bind_assoc, pure_bind]

theorem length_of_mapM {β γ : Type} {step : β → Option γ} {values : List β} {results : List γ}
    (run : values.mapM step = some results) : results.length = values.length := by
  induction values generalizing results with
  | nil =>
    cases run
    rfl
  | cons value rest ih =>
    rw [List.mapM_cons] at run
    obtain ⟨first, _, run⟩ := Option.bind_eq_some_iff.mp run
    obtain ⟨others, later, run⟩ := Option.bind_eq_some_iff.mp run
    cases run
    rw [List.length_cons, List.length_cons, ih later]


theorem length_of_ofItems {shape : Shape} {trees : List Tree} {parts : List (Option Tree)}
    (taken : ofItems shape trees = some parts) : parts.length = shape.length := by
  induction shape generalizing trees parts with
  | nil =>
    cases trees with
    | nil =>
      cases taken
      rfl
    | cons => cases taken
  | cons field rest ih =>
    cases trees with
    | nil =>
      rw [ofItems] at taken
      split at taken
      · obtain ⟨others, later, rfl⟩ := Option.map_eq_some_iff.mp taken
        rw [List.length_cons, List.length_cons, ih later]
      · cases taken
    | cons tree trees =>
      obtain ⟨others, later, rfl⟩ := Option.map_eq_some_iff.mp taken
      rw [List.length_cons, List.length_cons, ih later]

theorem ofItems_append {before : List Tree} (same : before.length = earlier.length) (after : List Tree) :
    ofItems (earlier ++ later) (before ++ after) = (ofItems later after).map (before.map some ++ ·) := by
  induction earlier generalizing before with
  | nil =>
    rw [List.length_nil, List.length_eq_zero_iff] at same
    subst same
    exact Option.map_id'.symm
  | cons field earlier ih =>
    obtain ⟨tree, before, rfl⟩ := List.exists_cons_of_length_eq_add_one same
    rw [List.length_cons, List.length_cons, Nat.add_right_cancel_iff] at same
    rw [List.cons_append, List.cons_append, ofItems, ih same, Option.map_map]
    rfl

/-- Around an open field, the trees of the other fields do not depend on what is put there. A field that is
open and also written is refused whatever is put there. -/
theorem exists_parts {shape : Shape} (split : shape = earlier ++ (name, presence) :: later)
    (record : OpenRecord) (fits : record.Fits earlier.length)
    (earlierApart : ∀ field ∈ earlier, field.1 ≠ name) (laterApart : ∀ field ∈ later, field.1 ≠ name) :
    ∃ parts : Option (List (Option Tree) × List (Option Tree)),
      (∀ before after, parts = some (before, after) →
        before.length = earlier.length ∧ after.length = later.length) ∧
      ∀ tree, fields shape (record.fill name tree) =
        parts.map fun around => around.1 ++ some tree :: around.2 := by
  subst split
  cases record with
  | array before after =>
    refine ⟨(ofItems later after).map fun others => (before.map some, others), ?_, fun tree => ?_⟩
    · intro front back known
      obtain ⟨others, taken, same⟩ := Option.map_eq_some_iff.mp known
      cases same
      exact ⟨by rw [List.length_map]; exact fits, length_of_ofItems taken⟩
    · rw [OpenRecord.fill, fields, ofItems_append fits, ofItems, Option.map_map, Option.map_map]
      rfl
  | object before after =>
    let others (shape : Shape) :=
      shape.mapM fun (other, presence) => memberOf other presence (before ++ after)
    refine ⟨if (before ++ after).all (fun member => member.1.isSome) &&
        !(before ++ after).any (fun member => member.1 = some name) then
        (others earlier).bind fun front => (others later).map fun back => (front, back)
      else none, ?_, fun tree => ?_⟩
    · intro front back known
      split at known
      · obtain ⟨front, taken, known⟩ := Option.bind_eq_some_iff.mp known
        obtain ⟨back, others, known⟩ := Option.map_eq_some_iff.mp known
        cases known
        exact ⟨length_of_mapM taken, length_of_mapM others⟩
      · cases known
    · rw [OpenRecord.fill, fields, ofMembers_append earlierApart laterApart, memberOf_own]
      cases (before ++ after).all fun member => member.1.isSome with
      | false => rfl
      | true =>
        change (others earlier >>= _) = _
        cases (before ++ after).any fun member => member.1 = some name with
        | false =>
          change (others earlier >>= fun front => others later >>= _) = _
          cases others earlier <;> cases others later <;> rfl
        | true => cases others earlier <;> rfl

/-! ## Fields beside an open one -/

section Beside

variable {β γ δ : Type} {field : Option β} {step other : β → Option γ}

theorem bind_of_earlier {items : Option δ} {put : δ → γ → γ}
    (rest : ∀ value, step value = items.bind fun items => (other value).map (put items)) :
    field.bind step = items.bind fun items => (field.bind other).map (put items) := by
  cases field with
  | none => cases items <;> rfl
  | some value => exact rest value

theorem bind_of_own {empty : Option β} {nothing : β} {put : β → γ → γ} (emptied : empty = some nothing)
    (rest : ∀ value, step value = (step nothing).map (put value)) :
    field.bind step = field.bind fun value => (empty.bind step).map (put value) := by
  rw [emptied]
  cases field with
  | none => rfl
  | some value => exact rest value

theorem bind_of_later {change : γ → γ} (rest : ∀ value, step value = (other value).map change) :
    field.bind step = (field.bind other).map change := by
  cases field with
  | none => rfl
  | some value => exact rest value

end Beside

end Json.Record

end PageCompiler
