import PageCompiler.Proofs.Markup.Moves

/-!
# Removed nodes

A node is removed with everything below it. The slots are emptied along a stack: the topmost node goes,
and its children come onto the stack instead. In a forest this empties the slots of the whole subtree and
no others. Slots that are empty stay so, whatever is done to a document afterwards, because every new node
gets the next slot after all others.
-/

namespace PageCompiler.Markup

namespace Document

variable {document changed : Document}

/-! ## The sweep -/

/-- A sweep along a stack of nodes, its top first, from a document to the one that it leaves. -/
inductive Sweeps : Document → List NodeId → Document → Prop where
  | done {document : Document} : Sweeps document [] document
  | gone {document swept : Document} {id : NodeId} {stack : List NodeId}
      (missing : document.node? id = none) (rest : Sweeps document stack swept) :
      Sweeps document (id :: stack) swept
  | emptied {document swept : Document} {id : NodeId} {node : Node} {stack : List NodeId}
      (found : document.node? id = some node)
      (rest : Sweeps (document.free [id]) (node.children.reverse ++ stack) swept) :
      Sweeps document (id :: stack) swept

theorem sweeps_nil_iff {swept : Document} : document.Sweeps [] swept ↔ swept = document := by
  constructor
  · rintro ⟨⟩
    rfl
  · rintro rfl
    exact .done

theorem sweeps_cons_iff {swept : Document} {id : NodeId} {node : Node} {stack : List NodeId}
    (found : document.node? id = some node) :
    document.Sweeps (id :: stack) swept ↔
      (document.free [id]).Sweeps (node.children.reverse ++ stack) swept := by
  constructor
  · intro sweeps
    cases sweeps with
    | gone missing _ =>
      rw [found] at missing
      cases missing
    | emptied other rest =>
      rw [found] at other
      cases other
      exact rest
  · exact .emptied found

/-- It does not matter in what order slots are emptied, or whether that is done at once. -/
theorem free_free_eq {first second ids : List NodeId}
    (members : ∀ id, id ∈ ids ↔ id ∈ first ∨ id ∈ second) :
    (document.free first).free second = document.free ids := by
  apply ext_node?
  · rw [size_free, size_free, size_free]
  · intro id
    rw [node?_free, node?_free, node?_free]
    by_cases early : id ∈ first <;> by_cases late : id ∈ second <;> simp [members, early, late]

/-- Whether a sweep from a node empties the slots of its family, in any document that still has the family
as it is in this one, and then goes on with the stack. -/
def SweptWhole (origin : Document) (id : NodeId) : Prop :=
  ∀ (document swept : Document) (stack : List NodeId),
    (∀ other, origin.Below other id → document.node? other = origin.node? other) →
      (document.Sweeps (id :: stack) swept ↔ (document.free (origin.family id)).Sweeps stack swept)

/-- A sweep from several nodes empties the slots of their families, provided that these have nothing in
common. -/
theorem Forest.sweeps_append_iff {origin : Document} (forest : origin.Forest) {ids : List NodeId}
    (whole : ∀ id ∈ ids, origin.SweptWhole id)
    (apart : ids.Pairwise fun id sibling => ∀ other, origin.Below other id → ¬ origin.Below other sibling)
    (kept : ∀ id ∈ ids, ∀ other, origin.Below other id → document.node? other = origin.node? other)
    (swept : Document) (stack : List NodeId) :
    document.Sweeps (ids ++ stack) swept ↔
      (document.free (ids.flatMap origin.family)).Sweeps stack swept := by
  induction ids generalizing document with
  | nil => rfl
  | cons id ids ih =>
    rw [List.forall_mem_cons] at whole kept
    rw [List.pairwise_cons] at apart
    have keptStill : ∀ sibling ∈ ids, ∀ other, origin.Below other sibling →
        (document.free (origin.family id)).node? other = origin.node? other := by
      intro sibling listed other below
      rw [node?_free, if_neg, kept.2 sibling listed other below]
      rw [forest.mem_family_iff]
      exact fun both => apart.1 sibling listed other both below
    rw [List.cons_append, whole.1 document swept _ kept.1, ih whole.2 apart.2 keptStill,
      free_free_eq fun other => List.flatMap_cons ▸ List.mem_append]

theorem Forest.sweptWhole {origin : Document} (forest : origin.Forest) (id : NodeId)
    (live : origin.contains id = true) : origin.SweptWhole id := by
  -- From the children up: what is swept after a node are their families, which have nothing in common.
  induction id using forest.induction_from_children with
  | _ id ih =>
    intro document swept stack kept
    obtain ⟨node, found⟩ := contains_iff.mp live
    have list := children_of_node? found
    have step {child : NodeId} (listed : child ∈ node.children) : origin.parent? child = some id :=
      forest.linked.mp (list ▸ listed)
    have below {child other : NodeId} (listed : child ∈ node.children)
        (lower : origin.Below other child) : origin.Below other id :=
      below_trans lower (below_of_parent? (step listed))
    have whole : ∀ child ∈ node.children.reverse, origin.SweptWhole child := by
      intro child listed
      rw [List.mem_reverse, ← list] at listed
      exact ih child listed (forest.contains_child listed)
    have apart : node.children.reverse.Pairwise fun child sibling =>
        ∀ other, origin.Below other child → ¬ origin.Below other sibling := by
      have distinct : node.children.reverse.Nodup := List.nodup_reverse.mpr (list ▸ forest.listedOnce id)
      refine distinct.imp_of_mem fun listed siblingListed different other lower => ?_
      rw [List.mem_reverse] at listed siblingListed
      exact forest.not_below_both (step listed) (step siblingListed) different lower
    have keptStill : ∀ child ∈ node.children.reverse, ∀ other, origin.Below other child →
        (document.free [id]).node? other = origin.node? other := by
      intro child listed other lower
      rw [List.mem_reverse] at listed
      rw [node?_free, if_neg, kept other (below listed lower)]
      rw [List.mem_singleton]
      rintro rfl
      exact forest.not_below_child (step listed) lower
    have members (other : NodeId) : other ∈ origin.family id ↔
        other ∈ [id] ∨ other ∈ node.children.reverse.flatMap origin.family := by
      rw [forest.family_eq, list, List.mem_cons, List.mem_singleton, List.mem_flatMap, List.mem_flatMap]
      simp only [List.mem_reverse]
    have foundStill : document.node? id = some node := (kept id (below_refl id)).trans found
    rw [sweeps_cons_iff foundStill, forest.sweeps_append_iff whole apart keptStill, free_free_eq members]

/-! ## What is lost -/

/-- What a document becomes when a node is removed: the slots of the node and of all that is below it are
empty, the list that it was in lacks it, and every other node is as it was. -/
structure Loses (document : Document) (id : NodeId) (changed : Document) : Prop where
  gone : ∀ other, document.Below other id → changed.node? other = none
  list : ∀ parent, document.parent? id = some parent → ∃ node before after,
    document.node? parent = some node ∧ node.children = before ++ id :: after ∧
      changed.node? parent = some { node with children := before ++ after }
  rest : ∀ other, ¬ document.Below other id → document.parent? id ≠ some other →
    changed.node? other = document.node? other
  size : changed.slots.size = document.slots.size

theorem node?_detached (id other : NodeId) :
    (document.detached id).node? other = (document.node? other).map fun node =>
      { node with
        parent := if other = id then none else node.parent
        children := node.children.filter (· != id) } := by
  rw [detached, relinked, node?_altered]

theorem Forest.loses (forest : document.Forest) (id : NodeId) :
    document.Loses id ((document.detached id).free ((document.detached id).family id)) := by
  have mem_family (other : NodeId) :
      other ∈ (document.detached id).family id ↔ document.Below other id := by
    rw [(forest.detached id).mem_family_iff]
    refine below_congr (fun low apart => ?_) other
    rw [parent?_detached, if_neg apart]
  have outside {other : NodeId} (apart : ¬ document.Below other id) : other ≠ id := by
    rintro rfl
    exact apart (below_refl other)
  constructor
  · intro other below
    rw [node?_free, if_pos ((mem_family other).mpr below)]
  · intro parent step
    have apart := forest.not_below_child step
    obtain ⟨node, found⟩ := contains_iff.mp (forest.contains_parent step)
    obtain ⟨before, after, whole, without⟩ :=
      exists_filter_ne_eq (forest.listedOnce parent) (forest.linked.mpr step)
    rw [children_of_node? found] at whole without
    refine ⟨node, before, after, found, whole, ?_⟩
    rw [node?_free, if_neg fun member => apart ((mem_family parent).mp member), node?_detached, found,
      Option.map_some, if_neg (outside apart), without]
  · intro other apart loose
    rw [node?_free, if_neg fun member => apart ((mem_family other).mp member), node?_detached]
    cases found : document.node? other with
    | none => rfl
    | some node =>
      have list := filter_children_eq_self forest loose
      rw [children_of_node? found] at list
      rw [Option.map_some, if_neg (outside apart), list]
  · rw [size_free, Document.detached, relinked, size_altered]

/-! ## New nodes -/

/-- The nodes that a document has and an earlier one did not have, in the order of their slots. -/
def newcomers (document earlier : Document) : List NodeId :=
  (List.range document.slots.size).filter fun id => document.contains id && !earlier.contains id

/-- Whether a document is followed by another one that has new nodes in new slots only. -/
structure Advances (document changed : Document) : Prop where
  size : document.slots.size ≤ changed.slots.size
  stale : ∀ id < document.slots.size, document.kind? id = none → changed.kind? id = none
  fresh : ∀ id, document.slots.size ≤ id → id < changed.slots.size → changed.contains id = true

theorem range'_append_of_le {first middle last : Nat} (lower : first ≤ middle) (upper : middle ≤ last) :
    List.range' first (middle - first) ++ List.range' middle (last - middle) =
      List.range' first (last - first) := by
  obtain ⟨left, rfl⟩ := Nat.exists_eq_add_of_le lower
  obtain ⟨right, rfl⟩ := Nat.exists_eq_add_of_le upper
  rw [Nat.add_sub_cancel_left, Nat.add_sub_cancel_left, List.range'_append_1, Nat.add_assoc,
    Nat.add_sub_cancel_left]

namespace Advances

theorem newcomers_eq (advances : document.Advances changed) :
    changed.newcomers document =
      List.range' document.slots.size (changed.slots.size - document.slots.size) := by
  have slots : List.range changed.slots.size = List.range document.slots.size ++
      List.range' document.slots.size (changed.slots.size - document.slots.size) := by
    have joined := range'_append_of_le (Nat.zero_le _) advances.size
    rwa [Nat.sub_zero, Nat.sub_zero, ← List.range_eq_range', ← List.range_eq_range', eq_comm] at joined
  rw [newcomers, slots, List.filter_append]
  have old : (List.range document.slots.size).filter
      (fun id => changed.contains id && !document.contains id) = [] := by
    rw [List.filter_eq_nil_iff]
    intro id inside both
    rw [Bool.and_eq_true, Bool.not_eq_true', contains, contains, Option.isSome_eq_false_iff,
      Option.isNone_iff_eq_none] at both
    have missing := advances.stale id (List.mem_range.mp inside) (kind?_eq_none_iff.mpr both.2)
    rw [kind?_eq_none_iff.mp missing] at both
    cases both.1
  have new : (List.range' document.slots.size (changed.slots.size - document.slots.size)).filter
      (fun id => changed.contains id && !document.contains id) =
        List.range' document.slots.size (changed.slots.size - document.slots.size) := by
    rw [List.filter_eq_self]
    intro id inside
    rw [List.mem_range'_1] at inside
    rw [advances.fresh id inside.1 (by omega), contains, node?_of_size_le inside.1]
    rfl
  rw [old, new, List.nil_append]

theorem inPlace (size : changed.slots.size = document.slots.size)
    (stale : ∀ id, document.kind? id = none → changed.kind? id = none) : document.Advances changed where
  size := size.ge
  stale id _ missing := stale id missing
  fresh id old new := absurd new (by omega)

theorem oneMore {kind : NodeKind} (size : changed.slots.size = document.slots.size + 1)
    (new : changed.kind? document.slots.size = some kind)
    (stale : ∀ id < document.slots.size, document.kind? id = none → changed.kind? id = none) :
    document.Advances changed where
  size := by omega
  stale := stale
  fresh id old inside := by
    obtain rfl : id = document.slots.size := by omega
    obtain ⟨node, found, _⟩ := Option.map_eq_some_iff.mp new
    exact contains_iff.mpr ⟨node, found⟩

theorem relinked (parents : NodeId → Option NodeId → Option NodeId)
    (lists : NodeId → List NodeId → List NodeId) : document.Advances (document.relinked parents lists) :=
  inPlace (size_altered _) fun id missing => (kind?_relinked parents lists id).trans missing

theorem withData {id : NodeId} {data : ElementData} (found : document.element? id = some data)
    (change : ElementData → ElementData) : document.Advances (document.withData id change) := by
  refine inPlace (size_withData id change) fun other missing => ?_
  rw [kind?_withData found, if_neg, missing]
  rintro rfl
  rw [element?_eq_some_iff_kind?.mp found] at missing
  cases missing

theorem withText {id : NodeId} (text : document.isText id = true) (content : Text) :
    document.Advances (document.withText id content) := by
  obtain ⟨old, kind⟩ := isText_iff_kind?.mp text
  obtain ⟨node, found, _⟩ := Option.map_eq_some_iff.mp kind
  refine inPlace (by simp [Document.withText]) fun other missing => ?_
  rw [kind?_withText (contains_iff.mpr ⟨node, found⟩), if_neg, missing]
  rintro rfl
  rw [kind] at missing
  cases missing

theorem pushed (kind : NodeKind) : document.Advances (document.push { kind }) := by
  have kinds (id : NodeId) : (document.push { kind }).kind? id = _ := kind?_push kind id
  refine oneMore (size_push _) ((kinds _).trans (if_pos rfl)) fun id old missing => ?_
  rw [kinds, if_neg (Nat.ne_of_lt old), missing]

theorem filled (id : NodeId) (content : Text) : document.Advances (document.filled id content) := by
  have stale (other : NodeId) (missing : document.kind? other = none) :
      (document.emptied id).kind? other = none := by
    rw [kind?_emptied, missing, ite_self]
  rw [Document.filled]
  split
  · exact inPlace (size_emptied id) stale
  · have kinds (other : NodeId) : ((document.emptied id).grafted id (.text content)).kind? other =
        if other = document.slots.size then some (.text content)
        else (document.emptied id).kind? other := by
      rw [kind?_grafted, size_emptied]
    refine oneMore ?_ ((kinds _).trans (if_pos rfl)) fun other old missing => ?_
    · rw [size_grafted, size_emptied]
    · rw [kinds, if_neg (Nat.ne_of_lt old), stale other missing]

end Advances

theorem Outcome.advances (outcome : Outcome document changed) : document.Advances changed := by
  cases outcome with
  | kept => exact .inPlace rfl fun _ missing => missing
  | pushed _ => exact .pushed _
  | withData found _ _ => exact .withData found _
  | withText text content => exact .withText text content
  | filled _ content => exact .filled _ content
  | moved _ => exact .relinked _ _
  | detached id => exact .relinked _ _
  | cleared id => exact .relinked _ _
  | removed id =>
    refine .inPlace ?_ fun other missing => ?_
    · rw [size_free, Document.detached, Document.relinked, size_altered]
    · rw [kind?_free, Document.detached, kind?_relinked, missing, ite_self]

/-! ## Runs -/

/-- One change of a document: a mutation, or a change of the data of an element that keeps its tag. -/
inductive Step (document : Document) : Document → Prop where
  | mutated (mutation : Mutation) : Step document (mutation.apply document)
  | edited (id : NodeId) (change : ElementData → ElementData)
      (sameTag : ∀ data, document.element? id = some data → (change data).tag = data.tag) :
      Step document (document.after (Edit.updateElement id change))

/-- A run of changes, with the nodes that came into being on the way, in order. -/
inductive Run (start : Document) : List NodeId → Document → Prop where
  | nothing : Run start [] start
  | step {issued : List NodeId} {document changed : Document} (run : Run start issued document)
      (step : document.Step changed) : Run start (issued ++ changed.newcomers document) changed

theorem Step.arranged (step : document.Step changed) (arranged : document.Arranged) : changed.Arranged := by
  cases step with
  | mutated mutation => exact arranged.mutated mutation
  | edited id change sameTag => exact arranged.edited id change sameTag

theorem Step.advances (step : document.Step changed) (arranged : document.Arranged) :
    document.Advances changed := by
  cases step with
  | mutated mutation => exact (arranged.forest.outcome mutation).advances
  | edited id change _ =>
    cases found : document.element? id with
    | none =>
      rw [after_of_error (Edit.updateElement_run_missing found change)]
      exact .inPlace rfl fun _ missing => missing
    | some data =>
      rw [after_of_ok (Edit.updateElement_run found change)]
      exact .withData found change

theorem Arranged.exists_run (arranged : document.Arranged) : ∃ issued, Run {} issued document := by
  induction arranged with
  | empty => exact ⟨[], .nothing⟩
  | mutated mutation _ ih =>
    obtain ⟨issued, run⟩ := ih
    exact ⟨_, run.step (.mutated mutation)⟩
  | edited id change sameTag _ ih =>
    obtain ⟨issued, run⟩ := ih
    exact ⟨_, run.step (.edited id change sameTag)⟩

namespace Run

variable {start : Document} {issued : List NodeId}

theorem arranged (run : Run start issued document) (first : start.Arranged) : document.Arranged := by
  induction run with
  | nothing => exact first
  | step _ step ih => exact step.arranged ih

/-- The new nodes of a run are those in the new slots, one after another. -/
theorem issued_eq (run : Run start issued document) (first : start.Arranged) :
    start.slots.size ≤ document.slots.size ∧
      issued = List.range' start.slots.size (document.slots.size - start.slots.size) := by
  induction run with
  | nothing => exact ⟨Nat.le_refl _, by rw [Nat.sub_self, List.range'_zero]⟩
  | @step issued document changed run step ih =>
    obtain ⟨grown, same⟩ := ih
    have advances := step.advances (run.arranged first)
    have further := advances.size
    exact ⟨grown.trans further, by rw [same, advances.newcomers_eq, range'_append_of_le grown further]⟩

/-- A slot that is empty stays empty. -/
theorem missing_still (run : Run start issued document) (first : start.Arranged) {id : NodeId}
    (old : id < start.slots.size) (missing : start.node? id = none) : document.node? id = none := by
  rw [← kind?_eq_none_iff] at missing ⊢
  induction run with
  | nothing => exact missing
  | step run step ih =>
    have grown := (run.issued_eq first).1
    exact (step.advances (run.arranged first)).stale id (old.trans_le grown) ih

end Run

theorem pairwise_words {count : Nat} (bounded : count ≤ UInt32.size) :
    ((List.range count).map UInt32.ofNat).Pairwise (· < ·) := by
  rw [List.pairwise_map]
  refine List.pairwise_lt_range.imp_of_mem fun lower higher less => ?_
  rw [List.mem_range] at lower higher
  rw [UInt32.lt_iff_toNat_lt, UInt32.toNat_ofNat_of_lt' (lower.trans_le bounded),
    UInt32.toNat_ofNat_of_lt' (higher.trans_le bounded)]
  exact less

/-- What is known of the nodes that came into being on the way to a document: they fill the slots in order,
the words that hold them grow, whoever makes a node is told which one it is, and one that has gone stays
missing in any later run. -/
structure Issues (document : Document) (issued : List NodeId) : Prop where
  all : issued = List.range document.slots.size
  words : issued.length ≤ UInt32.size → (issued.map UInt32.ofNat).Pairwise (· < ·)
  element : ∀ tag id changed, Edit.createElement tag document = .ok id changed →
    changed.newcomers document = [id]
  text : ∀ content id changed, Edit.createText content document = .ok id changed →
    changed.newcomers document = [id]
  stale : ∀ id ∈ issued, document.node? id = none → ∀ more later, Run document more later →
    Edit.node id later = .error (.missingNode id) later ∧ id ∉ more

theorem newcomers_push (kind : NodeKind) :
    (document.push { kind }).newcomers document = [document.slots.size] := by
  rw [(Advances.pushed kind).newcomers_eq, size_push, Nat.add_sub_cancel_left]
  rfl

theorem Run.issues {issued : List NodeId} (run : Run {} issued document) : document.Issues issued := by
  have arranged := run.arranged .empty
  have whole : issued = List.range document.slots.size := by
    rw [(run.issued_eq .empty).2, List.range_eq_range']
    rfl
  constructor
  · exact whole
  · intro bounded
    rw [whole, List.length_range] at bounded
    rw [whole]
    exact pairwise_words bounded
  · intro tag id changed made
    by_cases valid : isTagName tag = true
    · rw [Edit.createElement_run valid] at made
      cases made
      exact newcomers_push _
    · rw [Edit.createElement_run_invalid valid] at made
      cases made
  · intro content id changed made
    rw [Edit.createText_run] at made
    cases made
    exact newcomers_push _
  · intro id member missing more later further
    rw [whole, List.mem_range] at member
    refine ⟨Edit.node_run_missing (further.missing_still arranged member missing), ?_⟩
    rw [(further.issued_eq arranged).2, List.mem_range'_1]
    omega

/-- A living node is removed with all that is below it, and nothing else changes but the list that it was
in. The document is the end of a run, and on any such run nodes were given increasing positions, none of
which is given to another node once its own has gone. -/
theorem Arranged.removed_for_good (arranged : document.Arranged) :
    (∀ id, document.contains id = true → ∃ detached changed,
      Edit.detach id document = .ok () detached ∧ Edit.remove id document = .ok () changed ∧
        (∀ swept, detached.Sweeps [id] swept ↔ swept = changed) ∧ document.Loses id changed) ∧
      (∃ issued, Run {} issued document) ∧
        ∀ issued, Run {} issued document → document.Issues issued := by
  have forest := arranged.forest
  refine ⟨fun id live => ?_, arranged.exists_run, fun issued run => run.issues⟩
  have liveStill : (document.detached id).contains id = true := by
    rw [detached, contains_relinked, live]
  refine ⟨_, _, Edit.detach_run forest live, Edit.remove_run forest live, fun swept => ?_, forest.loses id⟩
  rw [(forest.detached id).sweptWhole id liveStill _ _ _ fun _ _ => rfl, sweeps_nil_iff]

/-- An item goes with its text, and a later text does not take the place of either. -/
theorem removed_for_good_item : ∃ document changed later : Document, document.Arranged ∧
    Edit.remove 1 document = .ok () changed ∧ document.Loses 1 changed ∧
      later = (Mutation.createText "two".toList).apply changed ∧
        later.kind? 3 = some (.text "two".toList) ∧
          Edit.node 2 later = .error (.missingNode 2) later := by
  let built := [Mutation.createElement "ul".toList, .createElement "li".toList, .appendChild 0 1,
    .setTextContent 1 "one".toList]
  let document := built.foldl (fun document mutation => mutation.apply document) {}
  have arranged : document.Arranged := Arranged.empty.run built
  obtain ⟨_, changed, _, removed, _, loses⟩ := arranged.removed_for_good.1 1 (by decide)
  have same : (Mutation.remove 1).apply document = changed := by
    rw [Mutation.apply, after_of_ok removed]
  subst same
  have arrangedStill := arranged.mutated (.remove 1)
  obtain ⟨issued, run⟩ := arrangedStill.removed_for_good.2.1
  have issues := arrangedStill.removed_for_good.2.2 issued run
  have member : 2 ∈ issued := by
    rw [issues.all]
    decide
  have stale := issues.stale 2 member (by decide)
  exact ⟨document, _, _, arranged, removed, loses, rfl, by decide,
    (stale _ _ (Run.nothing.step (.mutated (.createText "two".toList)))).1⟩

end Document

end PageCompiler.Markup
