import PageCompiler.Proofs.Markup.Nodes
import Mathlib.Logic.Relation
import Mathlib.Data.Finset.Card
import Mathlib.Order.WellFounded

/-!
# Forests

The links of a document are sound when its nodes form a forest: parents and lists of children agree,
no node is listed twice, only elements that may have content have children, and every path towards
the root ends. In a forest the recursions along links see everything: their depth is bounded by the
number of slots, which is what they are given.
-/

namespace PageCompiler.Markup.Document

variable {document : Document}

/-- Whether a node is an element that may have content. -/
def MayHost (document : Document) (id : NodeId) : Prop :=
  ∃ data, document.element? id = some data ∧ isVoidElement data.tag = false

/-- The nodes of a document form a forest. -/
structure Forest (document : Document) : Prop where
  linked : ∀ {child parent : NodeId},
    child ∈ document.children parent ↔ document.parent? child = some parent
  listedOnce : ∀ parent : NodeId, (document.children parent).Nodup
  hosts : ∀ {child parent : NodeId}, document.parent? child = some parent → document.MayHost parent
  grounded : WellFounded fun parent child => document.parent? child = some parent

/-- Whether a node is `top` or somewhere below it. -/
def Below (document : Document) (id top : NodeId) : Prop :=
  Relation.ReflTransGen (fun child parent => document.parent? child = some parent) id top

theorem below_refl (id : NodeId) : document.Below id id :=
  Relation.ReflTransGen.refl

theorem below_iff_eq_or_parent {id top : NodeId} :
    document.Below id top ↔
      id = top ∨ ∃ parent, document.parent? id = some parent ∧ document.Below parent top :=
  Relation.ReflTransGen.cases_head_iff

theorem below_iff_eq_or_child {id top : NodeId} :
    document.Below id top ↔
      top = id ∨ ∃ child, document.Below id child ∧ document.parent? child = some top :=
  Relation.ReflTransGen.cases_tail_iff _ _ _

theorem below_trans {low middle top : NodeId} (lower : document.Below low middle)
    (upper : document.Below middle top) : document.Below low top :=
  Relation.ReflTransGen.trans lower upper

theorem below_of_parent? {child parent : NodeId} (step : document.parent? child = some parent) :
    document.Below child parent :=
  Relation.ReflTransGen.single step

theorem eq_of_below_top {id top : NodeId} (below : document.Below id top)
    (orphan : document.parent? id = none) : id = top := by
  rcases below_iff_eq_or_parent.mp below with same | ⟨parent, step, _⟩
  · exact same
  · rw [orphan] at step
    cases step

/-- Paths that only lose links still end. -/
theorem grounded_of_fewer {first second : Document}
    (grounded : WellFounded fun parent child => first.parent? child = some parent)
    (fewer : ∀ child parent, second.parent? child = some parent → first.parent? child = some parent) :
    WellFounded fun parent child => second.parent? child = some parent :=
  Subrelation.wf (fun {parent child} => fewer child parent) grounded

theorem isAncestorWithin_iff {height : NodeId → Nat}
    (bounded : ∀ id, height id ≤ document.slots.size)
    (grows : ∀ child parent, document.parent? child = some parent → height child < height parent)
    (top : NodeId) (count : Nat) (id : NodeId) (enough : document.slots.size < count + height id) :
    document.isAncestorWithin top count id = true ↔ document.Below id top := by
  induction count generalizing id with
  | zero =>
    have limit := bounded id
    omega
  | succ count ih =>
    rw [isAncestorWithin, Bool.or_eq_true, decide_eq_true_iff, below_iff_eq_or_parent]
    cases above : document.parent? id with
    | none => simp
    | some parent =>
      have higher := grows id parent above
      simp only [Option.some.injEq, exists_eq_left']
      rw [ih parent (by omega)]

namespace Forest

theorem not_below_child (forest : document.Forest) {child parent : NodeId}
    (step : document.parent? child = some parent) : ¬ document.Below parent child := by
  intro back
  have cycle : Relation.TransGen (fun child parent => document.parent? child = some parent)
      child child := Relation.TransGen.head' step back
  have backwards := Relation.transGen_swap.mpr cycle
  exact forest.grounded.transGen.irrefl.irrefl child backwards

theorem ne_of_parent? (forest : document.Forest) {child parent : NodeId}
    (step : document.parent? child = some parent) : parent ≠ child := by
  rintro rfl
  exact forest.not_below_child step (below_refl parent)

theorem contains_parent (forest : document.Forest) {child parent : NodeId}
    (step : document.parent? child = some parent) : document.contains parent = true := by
  obtain ⟨data, found, _⟩ := forest.hosts step
  exact contains_of_element? found

theorem contains_child (forest : document.Forest) {child parent : NodeId}
    (listed : child ∈ document.children parent) : document.contains child = true :=
  contains_of_parent? (forest.linked.mp listed)

theorem children_of_text (forest : document.Forest) {id : NodeId}
    (text : document.isText id = true) : document.children id = [] := by
  rw [List.eq_nil_iff_forall_not_mem]
  intro child listed
  obtain ⟨data, found, _⟩ := forest.hosts (forest.linked.mp listed)
  rw [not_isText_of_element? found] at text
  cases text

theorem children_of_void (forest : document.Forest) {id : NodeId} {data : ElementData}
    (found : document.element? id = some data) (void : isVoidElement data.tag = true) :
    document.children id = [] := by
  rw [List.eq_nil_iff_forall_not_mem]
  intro child listed
  obtain ⟨host, hostFound, content⟩ := forest.hosts (forest.linked.mp listed)
  rw [found, Option.some.injEq] at hostFound
  rw [← hostFound, void] at content
  cases content

open Classical in
/-- Every node has a height, which grows towards the root and is bounded by the number of slots. -/
theorem exists_height (forest : document.Forest) :
    ∃ height : NodeId → Nat, (∀ id, height id ≤ document.slots.size) ∧
      ∀ child parent, document.parent? child = some parent → height child < height parent := by
  let below (top : NodeId) : Finset Nat :=
    (Finset.range document.slots.size).filter fun id => document.Below id top ∧ id ≠ top
  refine ⟨fun top => (below top).card, ?_, ?_⟩
  · intro top
    exact (Finset.card_filter_le _ _).trans_eq (Finset.card_range _)
  · intro child parent step
    apply Finset.card_lt_card
    rw [Finset.ssubset_iff_of_subset]
    · refine ⟨child, ?_, ?_⟩
      · simp only [below, Finset.mem_filter, Finset.mem_range]
        exact ⟨lt_size_of_contains (contains_of_parent? step), below_of_parent? step,
          (forest.ne_of_parent? step).symm⟩
      · simp [below]
    · intro id member
      simp only [below, Finset.mem_filter, Finset.mem_range] at member ⊢
      obtain ⟨inside, lower, _⟩ := member
      refine ⟨inside, below_trans lower (below_of_parent? step), ?_⟩
      rintro rfl
      exact forest.not_below_child step lower

/-- What holds of a node whenever it holds of its children holds of every node. -/
theorem induction_from_children (forest : document.Forest) {claim : NodeId → Prop}
    (step : ∀ id, (∀ child ∈ document.children id, claim child) → claim id) (id : NodeId) :
    claim id := by
  obtain ⟨height, _, grows⟩ := forest.exists_height
  induction bound : height id using Nat.strong_induction_on generalizing id with
  | _ level ih =>
    apply step
    intro child listed
    have lower := grows child id (forest.linked.mp listed)
    exact ih (height child) (by omega) child rfl

/-- The search for ancestors finds exactly the nodes on the path towards the root. -/
theorem isInclusiveAncestor_iff (forest : document.Forest) (top id : NodeId) :
    document.isInclusiveAncestor top id = true ↔ document.Below id top := by
  obtain ⟨height, bounded, grows⟩ := forest.exists_height
  exact isAncestorWithin_iff bounded grows top _ id (by omega)

theorem mem_familyWithin_iff (forest : document.Forest) {height : NodeId → Nat}
    (grows : ∀ child parent, document.parent? child = some parent → height child < height parent)
    (depth : Nat) (top : NodeId) (enough : height top < depth) (id : NodeId) :
    id ∈ document.familyWithin depth top ↔ document.Below id top := by
  induction depth generalizing top with
  | zero => omega
  | succ depth ih =>
    rw [familyWithin, List.mem_cons, List.mem_flatMap, below_iff_eq_or_child]
    apply or_congr eq_comm
    apply exists_congr
    intro child
    rw [forest.linked, and_comm]
    apply and_congr_left
    intro step
    have lower := grows child top step
    exact ih child (by omega)

/-- A family is a node with everything below it. -/
theorem mem_family_iff (forest : document.Forest) (top id : NodeId) :
    id ∈ document.family top ↔ document.Below id top := by
  obtain ⟨height, bounded, grows⟩ := forest.exists_height
  have limit := bounded top
  exact forest.mem_familyWithin_iff grows _ top (by omega) id

end Forest

end PageCompiler.Markup.Document
