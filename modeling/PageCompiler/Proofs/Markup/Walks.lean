import PageCompiler.Proofs.Markup.Grafts

/-!
# Walks along the links

Three recursions follow the links of a document: the search for an ancestor goes up, putting texts
together and writing markup go down. Here they are relations without any bound on their depth, so a
run that is related to a result is one that ends. As long as the links form a forest each of them ends
on every node, with the result that the bounded recursions give, and on the way down every node below
is met exactly once. The links form a forest whatever was done to a document, even when the data of
elements was changed at will, their tags apart.
-/

namespace PageCompiler.Markup

/-- The search for `top` on the way from a node to its root, with what it finds. -/
inductive Document.Climbs (document : Document) (top : NodeId) : NodeId → Bool → Prop where
  | found : Climbs document top top true
  | above {id parent : NodeId} {result : Bool} (different : id ≠ top)
      (step : document.parent? id = some parent) (rest : Climbs document top parent result) :
      Climbs document top id result
  | ended {id : NodeId} (different : id ≠ top) (root : document.parent? id = none) :
      Climbs document top id false

/-- A recursion down the links: the nodes it goes below, and what it makes of a node, given the tag of
the element around it and what it made of the children. -/
structure Walk where
  enters : NodeKind → Bool
  result : Option Text → NodeKind → List Text → Text

/-- The tag that the children of a node have around them. -/
def NodeKind.tag? : NodeKind → Option Text
  | .element data => some data.tag
  | .text _ => none

namespace Walk

mutual

/-- A run of a walk from a node: the text it makes, and the nodes it meets in order. -/
inductive Runs (walk : Walk) (document : Document) : Option Text → NodeId → Text → List NodeId → Prop
  where
  | missing {around : Option Text} {id : NodeId} (gone : document.node? id = none) :
      Runs walk document around id [] []
  | leaf {around : Option Text} {id : NodeId} {node : Node} (found : document.node? id = some node)
      (outside : walk.enters node.kind = false) :
      Runs walk document around id (walk.result around node.kind []) [id]
  | inner {around : Option Text} {id : NodeId} {node : Node} {texts : List Text} {met : List NodeId}
      (found : document.node? id = some node) (inside : walk.enters node.kind = true)
      (below : RunsAll walk document node.kind.tag? node.children texts met) :
      Runs walk document around id (walk.result around node.kind texts) (id :: met)

/-- Runs of a walk from several nodes, one after another. -/
inductive RunsAll (walk : Walk) (document : Document) :
    Option Text → List NodeId → List Text → List NodeId → Prop where
  | nil {around : Option Text} : RunsAll walk document around [] [] []
  | cons {around : Option Text} {id : NodeId} {ids met later : List NodeId} {text : Text}
      {texts : List Text} (first : Runs walk document around id text met)
      (rest : RunsAll walk document around ids texts later) :
      RunsAll walk document around (id :: ids) (text :: texts) (met ++ later)

end

/-- Putting the texts below a node together. -/
def collecting : Walk where
  enters _ := true
  result _ kind parts :=
    match kind with
    | .text content => content ++ parts.flatten
    | .element _ => parts.flatten

/-- Writing the markup of a node. Elements without content are not entered. -/
def writing : Walk where
  enters
    | .text _ => false
    | .element data => !isVoidElement data.tag
  result around kind parts :=
    match kind with
    | .text content => Tree.contentText around content
    | .element data =>
      if isVoidElement data.tag then Tree.startTag data
      else Tree.startTag data ++ parts.flatten ++ Tree.endTag data.tag

end Walk

namespace Document

variable {document : Document}

/-- The nodes met on the way down from a node, itself first. -/
def visited (document : Document) (id : NodeId) : List NodeId :=
  if document.contains id then document.family id else []

/-! ## The way up -/

/-- The search ends on every node, with what the bounded search finds. -/
theorem Forest.climbs_iff (forest : document.Forest) (top id : NodeId) (result : Bool) :
    document.Climbs top id result ↔ result = document.isInclusiveAncestor top id := by
  have finds : ∀ id, document.isInclusiveAncestor top id =
      (id = top || (document.parent? id).any (document.isInclusiveAncestor top)) := by
    intro id
    rw [Bool.eq_iff_iff, forest.isInclusiveAncestor_iff, below_iff_eq_or_parent, Bool.or_eq_true,
      decide_eq_true_iff]
    cases document.parent? id <;> simp [forest.isInclusiveAncestor_iff]
  induction id using forest.grounded.induction generalizing result with
  | _ id ih =>
    rw [finds id]
    constructor
    · intro run
      cases run with
      | found => simp
      | above different step rest =>
        rw [(ih _ step _).mp rest, step]
        simp [different]
      | ended different root => simp [different, root]
    · rintro rfl
      by_cases here : id = top
      · subst here
        simpa using Climbs.found
      · cases step : document.parent? id with
        | none => simpa [here] using Climbs.ended here step
        | some parent => simpa [here] using Climbs.above here step ((ih parent step _).mpr rfl)

/-! ## The way down -/

namespace Forest

theorem familyWithin_eq (forest : document.Forest) {height : NodeId → Nat}
    (grows : ∀ child parent, document.parent? child = some parent → height child < height parent)
    (depth other : Nat) (id : NodeId) (enough : height id < depth) (otherEnough : height id < other) :
    document.familyWithin depth id = document.familyWithin other id := by
  induction depth generalizing other id with
  | zero => omega
  | succ depth ih =>
    cases other with
    | zero => omega
    | succ other =>
      rw [familyWithin, familyWithin]
      apply congrArg (List.cons id)
      apply List.flatMap_congr
      intro child listed
      have lower := grows child id (forest.linked.mp listed)
      exact ih other child (by omega) (by omega)

theorem family_eq (forest : document.Forest) (id : NodeId) :
    document.family id = id :: (document.children id).flatMap document.family := by
  obtain ⟨height, bounded, grows⟩ := forest.exists_height
  rw [family, familyWithin]
  apply congrArg (List.cons id)
  apply List.flatMap_congr
  intro child listed
  have lower := grows child id (forest.linked.mp listed)
  have limit := bounded id
  exact forest.familyWithin_eq grows _ _ child (by omega) (by omega)

theorem visited_eq (forest : document.Forest) {id : NodeId} {node : Node}
    (found : document.node? id = some node) :
    document.visited id = id :: node.children.flatMap document.visited := by
  rw [visited, if_pos (contains_iff.mpr ⟨node, found⟩), forest.family_eq, children_of_node? found]
  apply congrArg (List.cons id)
  apply List.flatMap_congr
  intro child listed
  rw [← children_of_node? found] at listed
  rw [visited, if_pos (forest.contains_child listed)]

/-- Two children of a node have nothing in common below them. -/
theorem not_below_both (forest : document.Forest) {child sibling parent : NodeId}
    (step : document.parent? child = some parent) (siblingStep : document.parent? sibling = some parent)
    (different : child ≠ sibling) {id : NodeId} (below : document.Below id child) :
    ¬ document.Below id sibling := by
  intro both
  have single : Relator.RightUnique fun child parent => document.parent? child = some parent := by
    intro child parent other first second
    exact Option.some.inj (first.symm.trans second)
  rcases Relation.ReflTransGen.total_of_right_unique single below both with lower | lower
  · exact forest.not_below_sibling step siblingStep different lower
  · exact forest.not_below_sibling siblingStep step different.symm lower

/-- No node is met twice. -/
theorem nodup_family (forest : document.Forest) (id : NodeId) : (document.family id).Nodup := by
  induction id using forest.induction_from_children with
  | _ id ih =>
    rw [forest.family_eq, List.nodup_cons, List.nodup_flatMap]
    refine ⟨?_, ih, ?_⟩
    · rw [List.mem_flatMap]
      rintro ⟨child, listed, member⟩
      rw [forest.mem_family_iff] at member
      exact forest.not_below_child (forest.linked.mp listed) member
    · refine (forest.listedOnce id).imp_of_mem ?_
      intro child sibling listed siblingListed different other member both
      rw [forest.mem_family_iff] at member both
      exact forest.not_below_both (forest.linked.mp listed) (forest.linked.mp siblingListed) different
        member both

theorem nodup_visited (forest : document.Forest) (id : NodeId) : (document.visited id).Nodup := by
  rw [visited]
  split
  · exact forest.nodup_family id
  · exact List.nodup_nil

theorem mem_visited_iff (forest : document.Forest) (top id : NodeId) :
    id ∈ document.visited top ↔ document.contains top = true ∧ document.Below id top := by
  rw [visited]
  split
  · next live => simp [live, forest.mem_family_iff]
  · next gone => simp [gone]

end Forest

/-- Runs from several nodes are known once the runs from each of them are. -/
theorem runsAll_iff {walk : Walk} {around : Option Text} {value : NodeId → Text}
    {order : NodeId → List NodeId} {ids : List NodeId}
    (each : ∀ id ∈ ids, ∀ text met,
      walk.Runs document around id text met ↔ text = value id ∧ met = order id)
    (texts : List Text) (met : List NodeId) :
    walk.RunsAll document around ids texts met ↔ texts = ids.map value ∧ met = ids.flatMap order := by
  induction ids generalizing texts met with
  | nil =>
    constructor
    · intro runs
      cases runs
      exact ⟨rfl, rfl⟩
    · rintro ⟨rfl, rfl⟩
      exact .nil
  | cons id ids ih =>
    rw [List.forall_mem_cons] at each
    obtain ⟨first, later⟩ := each
    constructor
    · intro runs
      cases runs with
      | cons run rest =>
        obtain ⟨rfl, rfl⟩ := (first _ _).mp run
        obtain ⟨rfl, rfl⟩ := (ih later _ _).mp rest
        exact ⟨rfl, rfl⟩
    · rintro ⟨rfl, rfl⟩
      exact .cons ((first _ _).mpr ⟨rfl, rfl⟩) ((ih later _ _).mpr ⟨rfl, rfl⟩)

/-- A walk ends on every node with the value that obeys its equations, and meets each node below
once, provided that what it does not enter has no children. -/
theorem Forest.runs_iff (forest : document.Forest) {walk : Walk}
    (value : Option Text → NodeId → Text)
    (childless : ∀ {id node}, document.node? id = some node → walk.enters node.kind = false →
      node.children = [])
    (missing : ∀ {around id}, document.node? id = none → value around id = [])
    (there : ∀ {around id node}, document.node? id = some node →
      value around id = walk.result around node.kind (node.children.map (value node.kind.tag?)))
    (around : Option Text) (id : NodeId) (text : Text) (met : List NodeId) :
    walk.Runs document around id text met ↔ text = value around id ∧ met = document.visited id := by
  induction id using forest.induction_from_children generalizing around text met with
  | _ id ih =>
    cases found : document.node? id with
    | none =>
      have unmet : document.visited id = [] := by simp [visited, contains, found]
      rw [missing found, unmet]
      constructor
      · intro run
        cases run with
        | missing _ => exact ⟨rfl, rfl⟩
        | leaf other _ => simp [found] at other
        | inner other _ _ => simp [found] at other
      · rintro ⟨rfl, rfl⟩
        exact .missing found
    | some node =>
      rw [there found, forest.visited_eq found]
      rw [children_of_node? found] at ih
      have all := runsAll_iff fun child listed => ih child listed node.kind.tag?
      constructor
      · intro run
        cases run with
        | missing gone => simp [found] at gone
        | leaf other outside =>
          rw [found] at other
          cases other
          rw [childless found outside]
          exact ⟨rfl, rfl⟩
        | inner other inside below =>
          rw [found] at other
          cases other
          obtain ⟨rfl, rfl⟩ := (all _ _).mp below
          exact ⟨rfl, rfl⟩
      · rintro ⟨rfl, rfl⟩
        cases entered : walk.enters node.kind with
        | true => exact .inner found entered ((all _ _).mpr ⟨rfl, rfl⟩)
        | false =>
          rw [childless found entered]
          exact .leaf found entered

/-! ## Texts and markup -/

theorem textContent_element (forest : document.Forest) {id : NodeId} {data : ElementData}
    (found : document.element? id = some data) :
    document.textContent id = ((document.children id).map document.textContent).flatten := by
  rw [textContent, forest.tree?_element found]
  dsimp only
  rw [Tree.textContent]
  induction document.children id with
  | nil => rfl
  | cons child rest ih =>
    rw [List.map_cons, List.flatten_cons, ← ih, textContent, trees]
    cases below : document.tree? child with
    | none => rw [List.filterMap_cons_none below, trees, List.nil_append]
    | some tree => rw [List.filterMap_cons_some below, Tree.textContentAll, trees]

/-- The markup of a node inside an element with the given tag. -/
def markupIn (document : Document) (around : Option Text) (id : NodeId) : Text :=
  (document.tree? id).elim [] (Tree.markupIn around)

theorem markupIn_none (id : NodeId) : document.markupIn none id = document.markup id := by
  rw [markupIn, markup]
  cases document.tree? id <;> rfl

theorem markupIn_element (forest : document.Forest) {id : NodeId} {data : ElementData}
    (found : document.element? id = some data) (around : Option Text) :
    document.markupIn around id =
      if isVoidElement data.tag then Tree.startTag data
      else Tree.startTag data ++
        ((document.children id).map (document.markupIn (some data.tag))).flatten ++
          Tree.endTag data.tag := by
  have children (ids : List NodeId) : Tree.markupAll data.tag (document.trees ids) =
      (ids.map (document.markupIn (some data.tag))).flatten := by
    induction ids with
    | nil => rfl
    | cons child rest ih =>
      rw [List.map_cons, List.flatten_cons, ← ih, markupIn, trees]
      cases below : document.tree? child with
      | none => rw [List.filterMap_cons_none below, trees, Option.elim_none, List.nil_append]
      | some tree =>
        rw [List.filterMap_cons_some below, Tree.markupAll, trees, Option.elim_some]
  rw [markupIn, forest.tree?_element found, Option.elim_some, Tree.markupIn, children]

theorem childless_of_text (forest : document.Forest) {id : NodeId} {node : Node} {content : Text}
    (found : document.node? id = some node) (kind : node.kind = .text content) :
    node.children = [] := by
  rw [← children_of_node? found]
  exact forest.children_of_text (isText_iff.mpr ⟨node, content, found, kind⟩)

theorem Forest.collecting_iff (forest : document.Forest) (around : Option Text) (id : NodeId)
    (text : Text) (met : List NodeId) :
    Walk.collecting.Runs document around id text met ↔
      text = document.textContent id ∧ met = document.visited id := by
  apply forest.runs_iff fun _ => document.textContent
  · intro id node _ outside
    cases outside
  · intro around id missing
    rw [textContent, tree?_missing missing]
  · intro around id node found
    cases kind : node.kind with
    | text content =>
      have own : document.kind? id = some (.text content) := by rw [kind?, found, ← kind]; rfl
      rw [textContent, tree?_text own, childless_of_text forest found kind]
      exact (List.append_nil content).symm
    | element data =>
      rw [textContent_element forest (element?_eq_some_iff.mpr ⟨node, found, kind⟩),
        children_of_node? found]
      rfl

theorem Forest.writing_iff (forest : document.Forest) (around : Option Text) (id : NodeId)
    (text : Text) (met : List NodeId) :
    Walk.writing.Runs document around id text met ↔
      text = document.markupIn around id ∧ met = document.visited id := by
  apply forest.runs_iff document.markupIn
  · intro id node found outside
    cases kind : node.kind with
    | text content => exact childless_of_text forest found kind
    | element data =>
      rw [kind] at outside
      rw [← children_of_node? found]
      exact forest.children_of_void (element?_eq_some_iff.mpr ⟨node, found, kind⟩)
        (by simpa [Walk.writing] using outside)
  · intro around id missing
    rw [markupIn, tree?_missing missing]
    rfl
  · intro around id node found
    cases kind : node.kind with
    | text content =>
      have own : document.kind? id = some (.text content) := by rw [kind?, found, ← kind]; rfl
      rw [markupIn, tree?_text own]
      rfl
    | element data =>
      rw [markupIn_element forest (element?_eq_some_iff.mpr ⟨node, found, kind⟩),
        children_of_node? found]
      rfl

/-! ## Arranged documents -/

/-- The documents that mutations make out of the empty one when the data of elements may also be
changed at will, their tags apart. -/
inductive Arranged : Document → Prop where
  | empty : Arranged {}
  | mutated {document : Document} (mutation : Mutation) (arranged : Arranged document) :
      Arranged (mutation.apply document)
  | edited {document : Document} (id : NodeId) (change : ElementData → ElementData)
      (sameTag : ∀ data, document.element? id = some data → (change data).tag = data.tag)
      (arranged : Arranged document) : Arranged (document.after (Edit.updateElement id change))

/-- What can be relied on when the links of a document are followed, from living nodes and from
others. -/
structure Orderly (document : Document) : Prop where
  child : ∀ {child parent : NodeId}, child ∈ document.children parent →
    document.contains child = true ∧ document.parent? child = some parent ∧
      (document.children parent).count child = 1 ∧
        ∀ other, child ∈ document.children other → other = parent
  parent : ∀ {child parent : NodeId}, document.parent? child = some parent →
    (document.element? parent).isSome ∧ child ∈ document.children parent
  texts : ∀ {id : NodeId}, document.isText id = true → document.children id = []
  voids : ∀ {id : NodeId} {data : ElementData}, document.element? id = some data →
    isVoidElement data.tag = true → document.children id = []
  acyclic : ∀ id : NodeId,
    ¬ Relation.TransGen (fun child parent => document.parent? child = some parent) id id
  climbs : ∀ (top id : NodeId) (result : Bool),
    document.Climbs top id result ↔ result = document.isInclusiveAncestor top id
  ancestors : ∀ top id : NodeId, document.isInclusiveAncestor top id = true ↔
    Relation.ReflTransGen (fun child parent => document.parent? child = some parent) id top
  collects : ∀ (id : NodeId) (text : Text) (met : List NodeId),
    Walk.collecting.Runs document none id text met ↔
      text = document.textContent id ∧ met = document.visited id
  writes : ∀ (id : NodeId) (text : Text) (met : List NodeId),
    Walk.writing.Runs document none id text met ↔
      text = document.markup id ∧ met = document.visited id
  visitsOnce : ∀ id : NodeId, (document.visited id).Nodup
  visits : ∀ top id : NodeId, id ∈ document.visited top ↔ document.contains top = true ∧
    Relation.ReflTransGen (fun child parent => document.parent? child = some parent) id top

theorem orderly_of_forest (forest : document.Forest) : document.Orderly where
  child := by
    intro child parent listed
    have step := forest.linked.mp listed
    refine ⟨forest.contains_child listed, step,
      List.count_eq_one_of_mem (forest.listedOnce parent) listed, ?_⟩
    intro other otherListed
    have otherStep := forest.linked.mp otherListed
    exact Option.some.inj (otherStep.symm.trans step)
  parent := by
    intro child parent step
    obtain ⟨data, found, _⟩ := forest.hosts step
    exact ⟨Option.isSome_of_eq_some found, forest.linked.mpr step⟩
  texts := forest.children_of_text
  voids := forest.children_of_void
  acyclic := by
    intro id cycle
    obtain ⟨parent, step, back⟩ := Relation.TransGen.head'_iff.mp cycle
    exact forest.not_below_child step back
  climbs := forest.climbs_iff
  ancestors := forest.isInclusiveAncestor_iff
  collects := forest.collecting_iff none
  writes := by
    intro id text met
    rw [forest.writing_iff, markupIn_none]
  visitsOnce := forest.nodup_visited
  visits := forest.mem_visited_iff

theorem Arranged.forest (arranged : document.Arranged) : document.Forest := by
  induction arranged with
  | empty => exact Sound.empty.forest
  | mutated mutation _ forest => exact (forest.outcome mutation).forest forest
  | @edited document id change sameTag _ forest =>
    cases found : document.element? id with
    | none =>
      rw [after_of_error (Edit.updateElement_run_missing found change)]
      exact forest
    | some data =>
      rw [after_of_ok (Edit.updateElement_run found change)]
      exact forest.withData found (sameTag data found)

/-- Any sequence of mutations leads from an arranged document to an arranged one. -/
theorem Arranged.run (arranged : document.Arranged) (mutations : List Mutation) :
    (mutations.foldl (fun document mutation => mutation.apply document) document).Arranged := by
  induction mutations generalizing document with
  | nil => exact arranged
  | cons mutation rest ih => exact ih (arranged.mutated mutation)

/-- However a document was arranged, its nodes form a forest, and every walk along the links ends and
meets each node below once. -/
theorem Arranged.orderly (arranged : document.Arranged) : document.Orderly :=
  orderly_of_forest arranged.forest

/-- A list whose item is refused as its parent, and whose attributes no mutation could write. -/
theorem orderly_list : ∃ document : Document, document.Arranged ∧ document.visited 0 = [0, 1, 2] ∧
    document.markup 0 = "<ul a b=\"\"><li>one</li></ul>".toList ∧ document.Orderly := by
  have built := ((((Arranged.empty.mutated (.createElement "ul".toList)).mutated
    (.createElement "li".toList)).mutated (.appendChild 0 1)).mutated
    (.setTextContent 1 "one".toList)).mutated (.appendChild 1 0)
  have arranged := built.edited 0 (fun data => { data with attributes := [("a b".toList, [])] })
    fun data _ => rfl
  exact ⟨_, arranged, by decide, by decide, arranged.orderly⟩

end Document

end PageCompiler.Markup
