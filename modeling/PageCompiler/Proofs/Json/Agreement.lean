import Mathlib.Data.List.Forall2
import Mathlib.Data.List.Perm.Subperm
import PageCompiler.Json.Value
import PageCompiler.Proofs.Entries

/-!
# Values that agree

Two values are the same for the state of a page if they agree up to the order of members. On values whose
objects have no key twice this is symmetric and transitive. Values that agree in order, item by item and
member by member, are compared by `alike` with a comparison of numbers of its own.
-/

namespace PageCompiler

section Pairs

variable {α β γ : Type} {holds implied : α → β → Prop} {first : List α} {second : List β}

/-- What is paired is only compared inside of the two lists. -/
theorem forall₂_imp_of_mem (paired : List.Forall₂ holds first second)
    (imp : ∀ a ∈ first, ∀ b ∈ second, holds a b → implied a b) : List.Forall₂ implied first second := by
  rw [List.forall₂_iff_zip] at paired ⊢
  refine ⟨paired.1, fun {a b} zipped => ?_⟩
  obtain ⟨insideFirst, insideSecond⟩ := List.of_mem_zip zipped
  exact imp a insideFirst b insideSecond (paired.2 zipped)

theorem exists_of_forall₂ (paired : List.Forall₂ holds first second) {a : α} (inside : a ∈ first) :
    ∃ b ∈ second, holds a b := by
  induction paired with
  | nil => cases inside
  | cons head tail ih =>
    rcases List.mem_cons.mp inside with rfl | inside
    · exact ⟨_, List.mem_cons_self, head⟩
    · obtain ⟨b, listed, held⟩ := ih inside
      exact ⟨b, List.mem_cons_of_mem _ listed, held⟩

theorem forall₂_trans_of_mem {after : β → γ → Prop} {through : α → γ → Prop} {third : List γ}
    (paired : List.Forall₂ holds first second) (further : List.Forall₂ after second third)
    (trans : ∀ a ∈ first, ∀ b c, holds a b → after b c → through a c) :
    List.Forall₂ through first third := by
  induction paired generalizing third with
  | nil =>
    cases further
    exact .nil
  | cons head tail ih =>
    cases further with
    | cons next rest =>
      exact .cons (trans _ List.mem_cons_self _ _ head next)
        (ih rest fun a inside => trans a (List.mem_cons_of_mem _ inside))

end Pairs

namespace Json

namespace Value

/-! ## Induction -/

/-- The values that stand directly inside of a value. -/
def parts : Value → List Value
  | .array items => items
  | .object members => members.map Prod.snd
  | _ => []

mutual

/-- What holds of a value once it holds of its parts holds of every value. -/
theorem induction {holds : Value → Prop}
    (step : ∀ value : Value, (∀ part ∈ value.parts, holds part) → holds value) :
    (value : Value) → holds value
  | .array items => step (.array items) (induction_items step items)
  | .object members => step (.object members) (induction_members step members)
  | .null => step .null (List.forall_mem_nil _)
  | .bool value => step (.bool value) (List.forall_mem_nil _)
  | .number value => step (.number value) (List.forall_mem_nil _)
  | .string text => step (.string text) (List.forall_mem_nil _)

theorem induction_items {holds : Value → Prop}
    (step : ∀ value : Value, (∀ part ∈ value.parts, holds part) → holds value) :
    (items : List Value) → ∀ item ∈ items, holds item
  | [] => List.forall_mem_nil _
  | item :: rest => List.forall_mem_cons.mpr ⟨induction step item, induction_items step rest⟩

theorem induction_members {holds : Value → Prop}
    (step : ∀ value : Value, (∀ part ∈ value.parts, holds part) → holds value) :
    (members : List (Text × Value)) → ∀ value ∈ members.map Prod.snd, holds value
  | [] => List.forall_mem_nil _
  | (_, value) :: rest => List.forall_mem_cons.mpr ⟨induction step value, induction_members step rest⟩

end

theorem mem_parts_of_mem {members : List (Text × Value)} {member : Text × Value} (inside : member ∈ members) :
    member.2 ∈ (Value.object members).parts :=
  List.mem_map.mpr ⟨member, inside, rfl⟩

/-- Two values of one kind. -/
inductive SameKind : Value → Value → Prop
  | null : SameKind .null .null
  | bool (a b : Bool) : SameKind (.bool a) (.bool b)
  | number (a b : Number) : SameKind (.number a) (.number b)
  | string (a b : Text) : SameKind (.string a) (.string b)
  | array (items others : List Value) : SameKind (.array items) (.array others)
  | object (members others : List (Text × Value)) : SameKind (.object members) (.object others)

/-! ## Agreement up to the order of members -/

theorem sameKind_of_same {a b : Value} (agree : a.same b = true) : SameKind a b := by
  cases a <;> cases b <;> first | constructor | cases agree

theorem sameItems_iff {items others : List Value} :
    sameItems items others = true ↔ List.Forall₂ (fun a b => a.same b = true) items others := by
  induction items generalizing others with
  | nil => cases others <;> simp [sameItems]
  | cons item rest ih => cases others <;> simp [sameItems, ih]

theorem sameMembers_iff {members others : List (Text × Value)} :
    sameMembers members others = true ↔
      ∀ member ∈ members,
        ∃ other, Entries.get? member.1 others = some other ∧ member.2.same other = true := by
  induction members with
  | nil => simp [sameMembers]
  | cons member rest ih =>
    obtain ⟨key, value⟩ := member
    rw [sameMembers, Bool.and_eq_true, ih, List.forall_mem_cons]
    refine and_congr_left fun _ => ?_
    cases Entries.get? key others <;> simp

theorem same_object_iff {members others : List (Text × Value)} :
    (Value.object members).same (.object others) = true ↔ members.length = others.length ∧
      ∀ member ∈ members,
        ∃ other, Entries.get? member.1 others = some other ∧ member.2.same other = true := by
  rw [same, Bool.and_eq_true, beq_iff_eq, sameMembers_iff]

theorem same_array_iff {items others : List Value} :
    (Value.array items).same (.array others) = true ↔
      List.Forall₂ (fun a b => a.same b = true) items others := by
  rw [same, sameItems_iff]

/-! ## Sound values -/

mutual

/-- Whether all numbers in a value satisfy a condition and no object in it has a key twice. -/
def isSound (numbers : Number → Bool) : Value → Bool
  | .number value => numbers value
  | .array items => itemsSound numbers items
  | .object members => decide (Entries.keys members).Nodup && membersSound numbers members
  | _ => true

/-- Whether all of several values are sound. -/
def itemsSound (numbers : Number → Bool) : List Value → Bool
  | [] => true
  | item :: rest => isSound numbers item && itemsSound numbers rest

/-- Whether the values of all members are sound. -/
def membersSound (numbers : Number → Bool) : List (Text × Value) → Bool
  | [] => true
  | (_, value) :: rest => isSound numbers value && membersSound numbers rest

end

variable {numbers : Number → Bool}

theorem isSound_array_iff {items : List Value} :
    (Value.array items).isSound numbers = true ↔ ∀ item ∈ items, item.isSound numbers = true := by
  rw [isSound]
  induction items with
  | nil => simp [itemsSound]
  | cons item rest ih => simp [itemsSound, ih]

theorem isSound_object_iff {members : List (Text × Value)} :
    (Value.object members).isSound numbers = true ↔
      (Entries.keys members).Nodup ∧ ∀ member ∈ members, member.2.isSound numbers = true := by
  rw [isSound, Bool.and_eq_true, decide_eq_true_eq]
  refine and_congr Iff.rfl ?_
  induction members with
  | nil => simp [membersSound]
  | cons member rest ih =>
    rw [membersSound, Bool.and_eq_true, ih, List.forall_mem_cons]

end Value

/-! ## An equivalence -/

namespace Number

theorem same_comm (a b : Number) : a.same b = b.same a := by
  cases a <;> cases b <;> simp [same, Binary64.same, eq_comm, Bool.and_comm]

theorem same_trans {a b c : Number} (first : a.same b = true) (second : b.same c = true) :
    a.same c = true := by
  cases a <;> cases b <;> cases c <;> simp_all [same, Binary64.same]
  rcases first with rfl | first
  · exact second
  · rcases second with rfl | second
    · exact Or.inr first
    · exact Or.inr ⟨first.1, second.2⟩

end Number

namespace Value

variable {numbers : Number → Bool}

/-- Members of different keys that all have partners among as many others are the partners of all of them. -/
theorem exists_partner {members others : List (Text × Value)} (distinct : (Entries.keys members).Nodup)
    (length : members.length = others.length)
    (partners : ∀ member ∈ members,
      ∃ other, Entries.get? member.1 others = some other ∧ member.2.same other = true)
    {other : Text × Value} (inside : other ∈ others) : ∃ member ∈ members, member.1 = other.1 := by
  have keys : Entries.keys members ⊆ Entries.keys others := by
    intro key listed
    obtain ⟨member, inside, rfl⟩ := List.mem_map.mp listed
    obtain ⟨_, found, _⟩ := partners member inside
    exact List.mem_map.mpr ⟨_, Entries.mem_of_get? found, rfl⟩
  have permuted : (Entries.keys members).Perm (Entries.keys others) :=
    (List.subperm_of_subset distinct keys).perm_of_length_le (by simp [Entries.keys, length])
  exact List.mem_map.mp (permuted.mem_iff.mpr (List.mem_map.mpr ⟨other, inside, rfl⟩))

theorem same_symm {a b : Value} (soundA : a.isSound numbers = true) (soundB : b.isSound numbers = true)
    (agree : a.same b = true) : b.same a = true := by
  induction a using induction generalizing b with
  | step a ih =>
    cases sameKind_of_same agree with
    | null => rfl
    | bool a b => exact beq_iff_eq.mpr (eq_of_beq agree).symm
    | string a b => exact beq_iff_eq.mpr (eq_of_beq agree).symm
    | number a b =>
      rw [same, Number.same_comm]
      exact agree
    | array items others =>
      rw [isSound_array_iff] at soundA soundB
      rw [same_array_iff] at agree ⊢
      refine List.Forall₂.flip (forall₂_imp_of_mem agree fun a insideA b insideB agree => ?_)
      exact ih a insideA (soundA a insideA) (soundB b insideB) agree
    | object members others =>
      rw [isSound_object_iff] at soundA soundB
      rw [same_object_iff] at agree ⊢
      obtain ⟨length, partners⟩ := agree
      refine ⟨length.symm, fun other inside => ?_⟩
      obtain ⟨member, listed, key⟩ := exists_partner soundA.1 length partners inside
      obtain ⟨partner, found, agree⟩ := partners member listed
      rw [key, Entries.get?_of_mem soundB.1 inside] at found
      cases found
      refine ⟨member.2, ?_, ?_⟩
      · rw [← key]
        exact Entries.get?_of_mem soundA.1 listed
      · exact ih member.2 (mem_parts_of_mem listed) (soundA.2 member listed) (soundB.2 other inside) agree

theorem same_trans {a b c : Value} (first : a.same b = true) (second : b.same c = true) :
    a.same c = true := by
  induction a using induction generalizing b c with
  | step a ih =>
    cases sameKind_of_same first with
    | null => exact second
    | bool a b =>
      have same : a = b := eq_of_beq first
      exact same ▸ second
    | string a b =>
      have same : a = b := eq_of_beq first
      exact same ▸ second
    | number a b =>
      cases sameKind_of_same second with
      | number => exact Number.same_trans first second
    | array items others =>
      cases sameKind_of_same second with
      | array _ lasts =>
      rw [same_array_iff] at first second ⊢
      exact forall₂_trans_of_mem first second fun a inside b c => ih a inside
    | object members others =>
      cases sameKind_of_same second with
      | object _ lasts =>
      rw [same_object_iff] at first second ⊢
      refine ⟨first.1.trans second.1, fun member listed => ?_⟩
      obtain ⟨other, found, agree⟩ := first.2 member listed
      obtain ⟨last, there, agrees⟩ := second.2 _ (Entries.mem_of_get? found)
      exact ⟨last, there, ih member.2 (mem_parts_of_mem listed) agree agrees⟩

/-! ## Agreement in order -/

mutual

/-- Whether two values agree item by item and member by member, with a comparison of their numbers. -/
def alike (compare : Number → Number → Bool) : Value → Value → Bool
  | .null, .null => true
  | .bool a, .bool b => a == b
  | .number a, .number b => compare a b
  | .string a, .string b => a == b
  | .array items, .array others => itemsAlike compare items others
  | .object members, .object others => membersAlike compare members others
  | _, _ => false

/-- Whether two lists agree item by item. -/
def itemsAlike (compare : Number → Number → Bool) : List Value → List Value → Bool
  | [], [] => true
  | a :: items, b :: others => alike compare a b && itemsAlike compare items others
  | _, _ => false

/-- Whether the members of two objects agree one by one, by key and value. -/
def membersAlike (compare : Number → Number → Bool) : List (Text × Value) → List (Text × Value) → Bool
  | [], [] => true
  | (key, a) :: members, (other, b) :: others =>
    key == other && alike compare a b && membersAlike compare members others
  | _, _ => false

end

variable {compare : Number → Number → Bool}

theorem sameKind_of_alike {a b : Value} (agree : a.alike compare b = true) : SameKind a b := by
  cases a <;> cases b <;> first | constructor | cases agree

theorem alike_array_iff {items others : List Value} :
    (Value.array items).alike compare (.array others) = true ↔
      List.Forall₂ (fun a b => a.alike compare b = true) items others := by
  rw [alike]
  induction items generalizing others with
  | nil => cases others <;> simp [itemsAlike]
  | cons item rest ih => cases others <;> simp [itemsAlike, ih]

theorem alike_object_iff {members others : List (Text × Value)} :
    (Value.object members).alike compare (.object others) = true ↔
      List.Forall₂ (fun member other => member.1 = other.1 ∧ member.2.alike compare other.2 = true)
        members others := by
  rw [alike]
  induction members generalizing others with
  | nil => cases others <;> simp [membersAlike]
  | cons member rest ih => cases others <;> simp [membersAlike, ih]

/-- A comparison of numbers that holds less often makes fewer values agree. -/
theorem alike_imp {weaker : Number → Number → Bool} (imp : ∀ x y, compare x y = true → weaker x y = true)
    {a b : Value} (agree : a.alike compare b = true) : a.alike weaker b = true := by
  induction a using induction generalizing b with
  | step a ih =>
    cases sameKind_of_alike agree with
    | null => rfl
    | bool a b => exact agree
    | string a b => exact agree
    | number a b => exact imp a b agree
    | array items others =>
      rw [alike_array_iff] at agree ⊢
      exact forall₂_imp_of_mem agree fun a inside b _ => ih a inside
    | object members others =>
      rw [alike_object_iff] at agree ⊢
      exact forall₂_imp_of_mem agree fun member inside other _ agree =>
        ⟨agree.1, ih member.2 (mem_parts_of_mem inside) agree.2⟩

end Value

end Json

end PageCompiler
