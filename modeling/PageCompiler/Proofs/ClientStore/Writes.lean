import PageCompiler.ClientData
import PageCompiler.Proofs.ClientStore.Texts

/-!
# Writes that change nothing

The page and the client each say of a write whether it changes the value under its key. They mean the same
as long as values that either of them takes for the same are identical: with the same numbers of the data
format, and with members that are listed in the same order.
-/

namespace PageCompiler

open Json

namespace ClientStore

variable {a b : Value}

/-- Whether two values agree as the client lists them, with one comparison for numbers that stand alone and one
for numbers inside of arrays and objects. -/
def agreesBy (alone inside : Number → Number → Bool) : Value → Value → Bool
  | .number a, .number b => alone a b
  | a, b => (arranged a).alike inside (arranged b)

/-- Whether the client has the same numbers and the same members in the same order. -/
def agrees : Value → Value → Bool :=
  agreesBy (fun a b => number a = number b) sameNumber

/-- Whether the data format has the same numbers and the client the same members in the same order. A number that
stands alone is only itself. -/
def identical : Value → Value → Bool :=
  agreesBy (fun a b => a = b) Number.same

/-- Values are compared as they are arranged, unless both are numbers. -/
theorem numbers_or_arranged (a b : Value) : (∃ x y, a = .number x ∧ b = .number y) ∨
    ∀ alone inside, agreesBy alone inside a b = (arranged a).alike inside (arranged b) := by
  cases a <;> cases b <;> first | exact Or.inr fun _ _ => rfl | exact Or.inl ⟨_, _, rfl, rfl⟩

theorem sameNumber_of_same (x y : Number) (agree : x.same y = true) : sameNumber x y = true := by
  cases x with
  | integer i =>
    cases y with
    | integer j =>
      have equal : i = j := of_decide_eq_true agree
      simp [sameNumber, Binary64.same, equal]
    | float => cases agree
  | float x =>
    cases y with
    | integer => cases agree
    | float y => exact agree

theorem eq_iff_number_eq_and_same (x y : Number) : x = y ↔ number x = number y ∧ x.same y = true := by
  constructor
  · rintro rfl
    refine ⟨rfl, ?_⟩
    cases x <;> simp [Number.same, Binary64.same]
  · rintro ⟨numbers, same⟩
    cases x with
    | integer i =>
      cases y with
      | integer j => exact congrArg Number.integer (of_decide_eq_true same)
      | float => cases same
    | float x =>
      cases y with
      | integer => cases same
      | float y => exact congrArg Number.float numbers

/-- The client compares values by what they are. -/
theorem same_iff_agrees (soundA : a.isSound isHeld = true) (soundB : b.isSound isHeld = true) :
    same a b = true ↔ agrees a b = true := by
  have texts := text_eq_iff (isSound_arranged soundA) (isSound_arranged soundB)
  by_cases structured : isStructured a = true ∧ isStructured b = true
  · have apart : isSame a b = false ∧ agrees a b = (arranged a).alike sameNumber (arranged b) := by
      cases a <;> first | exact ⟨rfl, rfl⟩ | cases structured.1
    rw [same, apart.1, apart.2, structured.1, structured.2, ← texts]
    simp
  · cases a <;> cases b <;>
      first
      | exact absurd ⟨rfl, rfl⟩ structured
      | simp [same, isSame, isStructured, agrees, agreesBy, arranged, Value.alike]

/-- Identical values are the same for the page and for the client. -/
theorem same_of_identical (sound : b.isSound isHeld = true) (identical : identical a b = true) :
    a.same b = true ∧ agrees a b = true := by
  rcases numbers_or_arranged a b with ⟨x, y, rfl, rfl⟩ | arrange
  · obtain ⟨numbers, same⟩ := (eq_iff_number_eq_and_same x y).mp (of_decide_eq_true identical)
    exact ⟨same, decide_eq_true numbers⟩
  · rw [ClientStore.identical, arrange] at identical
    rw [agrees, arrange]
    exact ⟨same_of_alike_arranged sound identical, Value.alike_imp sameNumber_of_same identical⟩

/-- What both take for the same is identical. -/
theorem identical_of_same (sound : b.isSound isHeld = true) (same : a.same b = true)
    (agree : agrees a b = true) : identical a b = true := by
  rcases numbers_or_arranged a b with ⟨x, y, rfl, rfl⟩ | arrange
  · exact decide_eq_true ((eq_iff_number_eq_and_same x y).mpr ⟨of_decide_eq_true agree, same⟩)
  · rw [agrees, arrange] at agree
    rw [identical, arrange]
    exact alike_arranged_of_same sound same agree

end ClientStore

namespace ClientState

variable {state : ClientState} {key : Text} {a b : Value}

theorem isSound_of_get? {numbers : Number → Bool} (sound : state.value.isSound numbers = true)
    (found : Entries.get? key state = some a) : a.isSound numbers = true := by
  rw [value, Value.isSound_object_iff] at sound
  exact sound.2 (key, a) (Entries.mem_of_get? found)

/-- A write changes the value under a key unless the one before it wrote the same. -/
theorem set_set_eq_false_iff {numbers : Number → Bool} (sound : state.value.isSound numbers = true)
    (soundA : a.isSound numbers = true) : ((state.set key a).1.set key b).2 = false ↔ a.same b = true := by
  have written (state : ClientState) : (state.set key b).2 = false ↔ state.holds key b = true := by
    rw [set]
    split <;> simp_all
  rw [written]
  by_cases kept : state.holds key a = true
  · -- The value that stays is the same as the one that was written.
    rw [set, if_pos kept, holds]
    rw [holds] at kept
    cases found : Entries.get? key state with
    | none =>
      rw [found] at kept
      cases kept
    | some current =>
      rw [found] at kept
      have back := Value.same_symm (isSound_of_get? sound found) soundA kept
      exact ⟨Value.same_trans back, Value.same_trans kept⟩
  · rw [set, if_neg kept, holds, Entries.get?_put_self]

/-- The page and the client say the same of a second write if and only if the two values are identical as soon
as either of them takes them for the same. -/
theorem set_mirrors_client_iff (stored : state.value.isSound ClientStore.isHeld = true)
    (soundA : a.isSound ClientStore.isHeld = true) (soundB : b.isSound ClientStore.isHeld = true) :
    (((state.set key a).1.set key b).2 = false ↔ ClientStore.same a b = true) ↔
      (a.same b = true ∨ ClientStore.agrees a b = true → ClientStore.identical a b = true) := by
  rw [set_set_eq_false_iff stored soundA, ClientStore.same_iff_agrees soundA soundB]
  constructor
  · intro mirrors either
    have both : a.same b = true ∧ ClientStore.agrees a b = true := by
      rcases either with same | agree
      · exact ⟨same, mirrors.mp same⟩
      · exact ⟨mirrors.mpr agree, agree⟩
    exact ClientStore.identical_of_same soundB both.1 both.2
  · intro identical
    exact ⟨fun same => (ClientStore.same_of_identical soundB (identical (Or.inl same))).2,
      fun agree => (ClientStore.same_of_identical soundB (identical (Or.inr agree))).1⟩

/-- The client lists a member whose key is an index first, wherever it was written. -/
theorem set_mirrors_client_iff_reordered :
    ((value [(['n'], .null)]).isSound ClientStore.isHeld = true ∧
      (Value.object [(['b'], .null), (['2'], .number (.integer (-1)))]).isSound ClientStore.isHeld = true ∧
      (Value.object [(['2'], .number (.integer (-1))), (['b'], .null)]).isSound ClientStore.isHeld = true) ∧
    (((set (set [(['n'], .null)] ['k']
          (.object [(['b'], .null), (['2'], .number (.integer (-1)))])).1 ['k']
          (.object [(['2'], .number (.integer (-1))), (['b'], .null)])).2 = false ↔
        ClientStore.same (.object [(['b'], .null), (['2'], .number (.integer (-1)))])
          (.object [(['2'], .number (.integer (-1))), (['b'], .null)]) = true) ↔
      ((Value.object [(['b'], .null), (['2'], .number (.integer (-1)))]).same
          (.object [(['2'], .number (.integer (-1))), (['b'], .null)]) = true ∨
        ClientStore.agrees (.object [(['b'], .null), (['2'], .number (.integer (-1)))])
          (.object [(['2'], .number (.integer (-1))), (['b'], .null)]) = true →
        ClientStore.identical (.object [(['b'], .null), (['2'], .number (.integer (-1)))])
          (.object [(['2'], .number (.integer (-1))), (['b'], .null)]) = true)) :=
  ⟨by decide, set_mirrors_client_iff (by decide) (by decide) (by decide)⟩

/-- The client has one number for an integer and the floating point number of its size, where the page has two,
and two zeros where the page has one. It tells objects apart by the order of their members. -/
theorem set_can_differ_from_client :
    (((set (set [] ['k'] (.number (.integer 1))).1 ['k'] (.number (.float ⟨0x3FF0000000000000⟩))).2 = true ∧
        ClientStore.same (.number (.integer 1)) (.number (.float ⟨0x3FF0000000000000⟩)) = true) ∧
      ((set (set [] ['k'] (.number (.float ⟨0⟩))).1 ['k'] (.number (.float ⟨0x8000000000000000⟩))).2 = false ∧
        ClientStore.same (.number (.float ⟨0⟩)) (.number (.float ⟨0x8000000000000000⟩)) = false)) ∧
      (set (set [] ['k'] (.object [(['a'], .null), (['b'], .bool true)])).1 ['k']
          (.object [(['b'], .bool true), (['a'], .null)])).2 = false ∧
        ClientStore.same (.object [(['a'], .null), (['b'], .bool true)])
          (.object [(['b'], .bool true), (['a'], .null)]) = false := by
  decide

end ClientState

end PageCompiler
