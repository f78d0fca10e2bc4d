import PageCompiler.Proofs.Markup.Links

/-!
# Outcomes of edits

What every edit of a forest does: it either fails and leaves the document as it was, or has the one
outcome that is written down for it.
-/

namespace PageCompiler.Markup

open Steps Document

variable {document : Document}

namespace Document

/-- Taking out a node that its neighbour lists do not mention changes no list. -/
theorem filter_children_eq_self (forest : document.Forest) {id other : NodeId}
    (apart : document.parent? id ≠ some other) :
    (document.children other).filter (· != id) = document.children other := by
  rw [List.filter_eq_self]
  intro child listed
  have above := forest.linked.mp listed
  rw [bne_iff_ne]
  rintro rfl
  exact apart above

/-- A node without a parent is detached already. -/
theorem detached_of_orphan (forest : document.Forest) {id : NodeId}
    (orphan : document.parent? id = none) : document.detached id = document := by
  apply ext_node?
  · simp [detached, relinked]
  · intro other
    rw [detached, relinked, node?_altered]
    cases there : document.node? other with
    | none => rfl
    | some old =>
      have apart : document.parent? id ≠ some other := by
        rw [orphan]
        simp
      have list := filter_children_eq_self forest apart
      rw [children_of_node? there] at list
      simp only [Option.map_some, list]
      by_cases own : other = id
      · subst own
        rw [parent?_of_node? there] at orphan
        rw [if_pos rfl, ← orphan]
      · rw [if_neg own]

end Document

namespace Edit

theorem detach_run (forest : document.Forest) {id : NodeId} (live : document.contains id = true) :
    detach id document = .ok () (document.detached id) := by
  obtain ⟨node, found⟩ := contains_iff.mp live
  rw [detach, bind_of_ok (node_run found)]
  have parents := parent?_of_node? found
  cases above : node.parent with
  | none =>
    rw [detached_of_orphan forest (parents.trans above)]
    rfl
  | some parent =>
    rw [above] at parents
    have distinct := forest.ne_of_parent? parents
    have hostLive := forest.contains_parent parents
    obtain ⟨host, hostFound⟩ := contains_iff.mp hostLive
    simp only
    rw [bind_of_ok (get_run document), if_pos hostLive, bind_of_ok (updateNode_run hostFound _)]
    have foundStill : (document.altered (onlyAt parent fun node =>
        { node with children := node.children.filter (· != id) })).node? id = some node := by
      rw [node?_onlyAt, if_neg (Ne.symm distinct), found]
    rw [updateNode_run foundStill]
    apply congrArg (EStateM.Result.ok ())
    apply ext_node?
    · simp [detached, relinked]
    · intro other
      rw [node?_onlyAt, node?_onlyAt, detached, relinked, node?_altered]
      cases there : document.node? other with
      | none => simp
      | some old =>
        by_cases own : other = id
        · subst own
          have apart : document.parent? other ≠ some other := by
            rw [parents]
            simpa using distinct
          have list := filter_children_eq_self forest apart
          rw [children_of_node? there] at list
          simp [Ne.symm distinct, list]
        · by_cases host : other = parent
          · subst host
            simp [own]
          · have apart : document.parent? id ≠ some other := by
              rw [parents]
              simpa using Ne.symm host
            have list := filter_children_eq_self forest apart
            rw [children_of_node? there] at list
            simp [own, host, list]

theorem detach_run_missing {id : NodeId} (missing : document.node? id = none) :
    detach id document = .error (.missingNode id) document := by
  rw [detach, bind_of_error (node_run_missing missing)]

/-- Nodes of a list lose their parents one after another. -/
theorem release_run (ids : List NodeId) (live : ∀ id ∈ ids, document.contains id = true) :
    (ids.forM fun child => do
      if (← (get : Edit Document)).contains child then
        updateNode child fun node => { node with parent := none }) document =
      .ok () (document.relinked (fun id parent => if id ∈ ids then none else parent)
        fun _ children => children) := by
  induction ids generalizing document with
  | nil =>
    have same : document.relinked (fun id parent => if id ∈ ([] : List NodeId) then none else parent)
        (fun _ children => children) = document := by
      apply ext_node?
      · simp [relinked]
      · intro id
        simp [relinked]
    rw [same]
    rfl
  | cons first rest ih =>
    have firstLive := live first (by simp)
    obtain ⟨node, found⟩ := contains_iff.mp firstLive
    have run : (do
        if (← get).contains first then
          updateNode first fun node => { node with parent := none } : Edit Unit) document =
        .ok () (document.altered (onlyAt first fun node => { node with parent := none })) := by
      rw [bind_of_ok (get_run document), if_pos firstLive, updateNode_run found]
    rw [forM_cons_of_ok first rest run, ih]
    · apply congrArg (EStateM.Result.ok ())
      apply ext_node?
      · simp [relinked]
      · intro id
        rw [relinked, node?_altered, node?_onlyAt, relinked, node?_altered]
        cases document.node? id with
        | none => simp
        | some old =>
          by_cases own : id = first <;> by_cases later : id ∈ rest <;> simp [own, later]
    · intro id member
      rw [contains_altered]
      exact live id (by simp [member])

theorem clearChildren_run (forest : document.Forest) {id : NodeId}
    (live : document.contains id = true) :
    clearChildren id document = .ok (document.children id) (document.cleared id) := by
  obtain ⟨node, found⟩ := contains_iff.mp live
  rw [clearChildren, bind_of_ok (node_run found), bind_of_ok (updateNode_run found _)]
  have list := children_of_node? found
  have childrenLive : ∀ child ∈ node.children, (document.altered (onlyAt id fun node =>
      { node with children := [] })).contains child = true := by
    intro child listed
    rw [← list] at listed
    rw [contains_altered]
    exact forest.contains_child listed
  rw [bind_of_ok (release_run node.children childrenLive), list]
  apply congrArg (EStateM.Result.ok node.children)
  apply ext_node?
  · simp [relinked, cleared]
  · intro other
    rw [relinked, node?_altered, node?_onlyAt, cleared, relinked, node?_altered]
    cases there : document.node? other with
    | none => simp
    | some old =>
      have listed : other ∈ node.children ↔ old.parent = some id := by
        rw [← list, forest.linked, parent?_of_node? there]
      by_cases own : other = id
      · subst own
        by_cases child : old.parent = some other <;> simp [child, listed]
      · by_cases child : old.parent = some id <;> simp [own, child, listed]

theorem clearChildren_run_missing {id : NodeId} (missing : document.node? id = none) :
    clearChildren id document = .error (.missingNode id) document := by
  rw [clearChildren, bind_of_error (node_run_missing missing)]

theorem remove_run (forest : document.Forest) {id : NodeId} (live : document.contains id = true) :
    remove id document =
      .ok () ((document.detached id).free ((document.detached id).family id)) := by
  rw [remove, bind_of_ok (detach_run forest live)]
  rfl

theorem remove_run_missing {id : NodeId} (missing : document.node? id = none) :
    remove id document = .error (.missingNode id) document := by
  rw [remove, bind_of_error (detach_run_missing missing)]

/-- Why a node cannot be put below another one. -/
def appendProblem (document : Document) (parent child : NodeId) : Option DomError :=
  match document.element? parent with
  | none => some (elementProblem document parent)
  | some data =>
    if isVoidElement data.tag then some (.voidElement data.tag)
    else if !document.contains child then some (.missingNode child)
    else if document.isInclusiveAncestor child parent then some (.hierarchyRequest parent child)
    else none

theorem appendProblem_eq_none_iff (forest : document.Forest) {parent child : NodeId} :
    appendProblem document parent child = none ↔
      document.MayHost parent ∧ document.contains child = true ∧ ¬ document.Below parent child := by
  rw [← forest.isInclusiveAncestor_iff child parent]
  unfold appendProblem MayHost
  cases document.element? parent with
  | none => simp
  | some data =>
    by_cases void : isVoidElement data.tag = true <;>
      by_cases live : document.contains child = true <;>
      by_cases above : document.isInclusiveAncestor child parent = true <;>
      simp [void, live, above]

theorem appendProblem_void {parent : NodeId} {data : ElementData}
    (found : document.element? parent = some data) (void : isVoidElement data.tag = true) (child : NodeId) :
    appendProblem document parent child = some (.voidElement data.tag) := by
  simp [appendProblem, found, void]

theorem appendChild_run_problem {parent child : NodeId} {cause : DomError}
    (problem : appendProblem document parent child = some cause) :
    appendChild parent child document = .error cause document := by
  unfold appendProblem at problem
  cases found : document.element? parent with
  | none =>
    rw [found] at problem
    cases problem
    rw [appendChild, bind_of_error (element_run_missing found)]
  | some data =>
    rw [appendChild, bind_of_ok (element_run found)]
    rw [found] at problem
    simp only at problem
    by_cases void : isVoidElement data.tag = true
    · rw [if_pos void] at problem
      cases problem
      rw [if_pos void]
      rfl
    · rw [if_neg void] at problem
      rw [if_neg void]
      dsimp only
      by_cases live : document.contains child = true
      · rw [if_neg (by simp [live])] at problem
        obtain ⟨node, there⟩ := contains_iff.mp live
        rw [bind_of_ok (node_run there), bind_of_ok (get_run document)]
        split at problem
        · next above =>
          cases problem
          rw [if_pos above]
          rfl
        · cases problem
      · rw [if_pos (by simp [live])] at problem
        cases problem
        rw [bind_of_error (node_run_missing (by simpa [contains] using live))]

theorem appendChild_run (forest : document.Forest) {parent child : NodeId}
    (possible : appendProblem document parent child = none) :
    appendChild parent child document = .ok () (document.moved parent child) := by
  obtain ⟨⟨data, found, content⟩, live, outside⟩ := (appendProblem_eq_none_iff forest).mp possible
  have notAbove : ¬ document.isInclusiveAncestor child parent = true := by
    rwa [forest.isInclusiveAncestor_iff]
  obtain ⟨node, there⟩ := contains_iff.mp live
  obtain ⟨host, hostFound, _⟩ := element?_eq_some_iff.mp found
  have distinct : parent ≠ child := by
    rintro rfl
    exact outside (below_refl parent)
  rw [appendChild, bind_of_ok (element_run found), if_neg (by simp [content])]
  dsimp only
  rw [bind_of_ok (node_run there), bind_of_ok (get_run document), if_neg notAbove,
    bind_of_ok (detach_run forest live)]
  have thereStill : (document.detached child).node? child =
      some { node with parent := none, children := node.children.filter (· != child) } := by
    simp [Document.detached, relinked, there]
  have hostStill : ((document.detached child).altered (onlyAt child fun node =>
      { node with parent := some parent })).node? parent =
        some { host with children := host.children.filter (· != child) } := by
    rw [node?_onlyAt, if_neg distinct]
    simp [Document.detached, relinked, hostFound, distinct]
  rw [bind_of_ok (updateNode_run thereStill _), updateNode_run hostStill]
  apply congrArg (EStateM.Result.ok ())
  apply ext_node?
  · simp [Document.detached, moved, relinked]
  · intro other
    rw [node?_onlyAt, node?_onlyAt, Document.detached, relinked, node?_altered, moved, relinked,
      node?_altered]
    cases document.node? other with
    | none => simp
    | some old =>
      by_cases own : other = child
      · subst own
        simp [Ne.symm distinct]
      · by_cases below : other = parent
        · subst below
          simp [own]
        · simp [own, below]

end Edit

/-! ## Contents -/

namespace Document

/-- The document with the children of a node released and the texts among them removed. -/
def emptied (document : Document) (id : NodeId) : Document :=
  (document.cleared id).free ((document.children id).filter document.isText)

/-- The document with the children of an element replaced by a text. -/
def filled (document : Document) (id : NodeId) (content : Text) : Document :=
  if content.isEmpty then document.emptied id else (document.emptied id).grafted id (.text content)

theorem family_of_childless {id : NodeId} (childless : document.children id = []) :
    document.family id = [id] := by
  rw [family, familyWithin, childless]
  rfl

theorem Forest.freed_leaves (forest : document.Forest) {ids : List NodeId}
    (leaves : ∀ id ∈ ids, document.parent? id = none ∧ document.children id = []) :
    (document.free ids).Forest := by
  apply forest.freed
  intro child parent step
  have listed := forest.linked.mpr step
  constructor
  · intro member
    rw [(leaves child member).1] at step
    cases step
  · intro member
    rw [(leaves parent member).2] at listed
    cases listed

theorem Forest.discarded (forest : document.Forest) (kind : NodeKind) :
    ((document.push { kind }).free [document.slots.size]).Forest := by
  apply (forest.pushed kind).freed_leaves
  intro id member
  rw [List.mem_singleton.mp member]
  exact ⟨parent?_pushed kind, children_pushed kind⟩

/-- The texts that a node had as children are leaves once it has none. -/
theorem Forest.leaves_of_cleared (forest : document.Forest) (id : NodeId) :
    ∀ child ∈ (document.children id).filter document.isText,
      (document.cleared id).parent? child = none ∧ (document.cleared id).children child = [] := by
  intro child member
  obtain ⟨listed, text⟩ := List.mem_filter.mp member
  rw [parent?_cleared, if_pos (forest.linked.mp listed), children_cleared]
  refine ⟨rfl, ?_⟩
  split
  · rfl
  · exact forest.children_of_text text

theorem Forest.emptied (forest : document.Forest) (id : NodeId) : (document.emptied id).Forest :=
  (forest.cleared id).freed_leaves (forest.leaves_of_cleared id)

theorem size_emptied (id : NodeId) : (document.emptied id).slots.size = document.slots.size := by
  rw [emptied, size_free, cleared, relinked, size_altered]

theorem kind?_emptied (id other : NodeId) :
    (document.emptied id).kind? other =
      if other ∈ document.children id ∧ document.isText other = true then none
      else document.kind? other := by
  rw [emptied, kind?_free, cleared, kind?_relinked]
  simp only [List.mem_filter]

theorem mayHost_emptied (forest : document.Forest) {id : NodeId} (host : document.MayHost id) :
    (document.emptied id).MayHost id := by
  refine mayHost_of_element?_eq (element?_congr ?_) host
  rw [kind?_emptied, if_neg]
  rintro ⟨listed, _⟩
  exact forest.ne_of_parent? (forest.linked.mp listed) rfl

theorem Forest.filled (forest : document.Forest) {id : NodeId} (host : document.MayHost id)
    (content : Text) : (document.filled id content).Forest := by
  rw [Document.filled]
  split
  · exact forest.emptied id
  · exact (forest.emptied id).grafted (mayHost_emptied forest host) _

end Document

namespace Edit

theorem removeLeaf_run (forest : document.Forest) {id : NodeId} (live : document.contains id = true)
    (orphan : document.parent? id = none) (childless : document.children id = []) :
    remove id document = .ok () (document.free [id]) := by
  rw [remove_run forest live, detached_of_orphan forest orphan, family_of_childless childless]

/-- A new node can be removed again. -/
theorem removePushed_run (forest : document.Forest) (kind : NodeKind) :
    remove document.slots.size (document.push { kind }) =
      .ok () ((document.push { kind }).free [document.slots.size]) :=
  removeLeaf_run (forest.pushed kind) (contains_pushed kind) (parent?_pushed kind) (children_pushed kind)

theorem removeText_run (forest : document.Forest) {id : NodeId}
    (orphan : document.parent? id = none) (text : document.isText id = true) :
    remove id document = .ok () (document.free [id]) := by
  obtain ⟨node, _, found, _⟩ := isText_iff.mp text
  exact removeLeaf_run forest (contains_iff.mpr ⟨node, found⟩) orphan (forest.children_of_text text)

/-- The texts among released nodes are removed one after another. -/
theorem removeTexts_run (forest : document.Forest) (ids : List NodeId) (distinct : ids.Nodup)
    (orphans : ∀ id ∈ ids, document.parent? id = none) :
    (ids.forM fun child => do
      if (← (get : Edit Document)).isText child then remove child) document =
      .ok () (document.free (ids.filter document.isText)) := by
  induction ids generalizing document with
  | nil => rfl
  | cons first rest ih =>
    obtain ⟨fresh, distinctRest⟩ := List.nodup_cons.mp distinct
    have orphan := orphans first (by simp)
    by_cases text : document.isText first = true
    · have run : (do
          if (← (get : Edit Document)).isText first then remove first) document =
          .ok () (document.free [first]) := by
        rw [bind_of_ok (get_run document), if_pos text]
        exact removeText_run forest orphan text
      have forestStill : (document.free [first]).Forest := by
        apply forest.freed_leaves
        intro id member
        rw [List.mem_singleton.mp member]
        exact ⟨orphan, forest.children_of_text text⟩
      have orphansStill : ∀ id ∈ rest, (document.free [first]).parent? id = none := by
        intro id member
        rw [parent?_free, orphans id (by simp [member]), ite_self]
      have texts : rest.filter (document.free [first]).isText = rest.filter document.isText := by
        apply List.filter_congr
        intro id member
        apply isText_congr
        rw [kind?_free, if_neg]
        rw [List.mem_singleton]
        rintro rfl
        exact fresh member
      rw [forM_cons_of_ok first rest run, ih forestStill distinctRest orphansStill, texts,
        List.filter_cons_of_pos text, ← free_cons]
    · have run : (do
          if (← (get : Edit Document)).isText first then remove first) document =
          .ok () document := by
        rw [bind_of_ok (get_run document), if_neg text]
        rfl
      rw [forM_cons_of_ok first rest run, ih forest distinctRest fun id member =>
        orphans id (by simp [member]), List.filter_cons_of_neg text]

/-- A new node can be put below any element that may have content. -/
theorem appendProblem_pushed (forest : document.Forest) {host : NodeId}
    (possible : document.MayHost host) (kind : NodeKind) :
    appendProblem (document.push { kind }) host document.slots.size = none := by
  obtain ⟨data, found, content⟩ := possible
  have inside := lt_size_of_contains (contains_of_element? found)
  rw [appendProblem_eq_none_iff (forest.pushed kind)]
  refine ⟨mayHost_of_element?_eq (element?_congr ?_) ⟨data, found, content⟩, contains_pushed kind, ?_⟩
  · rw [kind?_push, if_neg (Nat.ne_of_lt inside)]
  · exact not_below_pushed forest inside kind

theorem appendProblem_pushed_iff (forest : document.Forest) {host : NodeId} (kind : NodeKind) :
    appendProblem (document.push { kind }) host document.slots.size = none ↔ document.MayHost host := by
  refine ⟨fun possible => ?_, fun possible => appendProblem_pushed forest possible kind⟩
  obtain ⟨mayHost, _, outside⟩ := (appendProblem_eq_none_iff (forest.pushed kind)).mp possible
  refine mayHost_of_element?_eq (element?_congr ?_) mayHost
  rw [kind?_push, if_neg]
  rintro rfl
  exact outside (below_refl _)

/-- A new node is put below an element that may have content. -/
theorem graft_run (forest : document.Forest) {host : NodeId} (possible : document.MayHost host)
    (kind : NodeKind) :
    (create { kind } >>= fun id => appendChild host id) document =
      .ok () (document.grafted host kind) := by
  rw [bind_of_ok (create_run _)]
  exact appendChild_run (forest.pushed kind) (appendProblem_pushed forest possible kind)

theorem setTextContent_run (forest : document.Forest) {id : NodeId} (host : document.MayHost id)
    (content : Text) :
    setTextContent id content document = .ok () (document.filled id content) := by
  have possible := mayHost_emptied forest host
  obtain ⟨data, found, _⟩ := host
  obtain ⟨node, there, kind⟩ := element?_eq_some_iff.mp found
  rw [setTextContent, bind_of_ok (node_run there), kind]
  dsimp only
  have live := contains_of_element? found
  have orphans : ∀ child ∈ document.children id, (document.cleared id).parent? child = none := by
    intro child listed
    rw [parent?_cleared, if_pos (forest.linked.mp listed)]
  rw [bind_of_ok (clearChildren_run forest live),
    bind_of_ok (removeTexts_run (forest.cleared id) _ (forest.listedOnce id) orphans)]
  have texts : (document.children id).filter (document.cleared id).isText =
      (document.children id).filter document.isText := by
    apply List.filter_congr
    intro child _
    exact isText_relinked _ _ _
  rw [texts]
  cases content with
  | nil => rfl
  | cons first rest => exact graft_run (forest.emptied id) possible _

theorem emptied_of_childless (forest : document.Forest) {id : NodeId}
    (childless : document.children id = []) : document.emptied id = document := by
  apply ext_node?
  · simp [emptied, cleared, relinked]
  · intro other
    rw [emptied, childless, List.filter_nil, node?_free, if_neg List.not_mem_nil, cleared, relinked,
      node?_altered]
    cases there : document.node? other with
    | none => rfl
    | some node =>
      have apart : node.parent ≠ some id := by
        rw [← parent?_of_node? there]
        intro step
        have listed := forest.linked.mpr step
        rw [childless] at listed
        cases listed
      by_cases own : other = id
      · subst own
        rw [children_of_node? there] at childless
        rw [Option.map_some, if_neg apart, if_pos rfl, ← childless]
      · simp [apart, own]

/-- An element without content refuses a text, but only once the text has been made. -/
theorem setTextContent_run_void (forest : document.Forest) {id : NodeId} {data : ElementData}
    (found : document.element? id = some data) (void : isVoidElement data.tag = true)
    (content : Text) :
    setTextContent id content document =
      if content.isEmpty then .ok () document
      else .error (.voidElement data.tag) (document.push { kind := .text content }) := by
  obtain ⟨node, there, kind⟩ := element?_eq_some_iff.mp found
  have live := contains_of_element? found
  have childless := forest.children_of_void found void
  have unchanged := emptied_of_childless forest childless
  rw [emptied, childless, List.filter_nil] at unchanged
  have same : document.cleared id = document := unchanged
  rw [setTextContent, bind_of_ok (node_run there), kind]
  dsimp only
  rw [bind_of_ok (clearChildren_run forest live), childless, bind_of_ok (forM_nil_run _ _), same]
  cases content with
  | nil => rfl
  | cons first rest =>
    have foundStill : (document.push { kind := .text (first :: rest) }).element? id = some data := by
      rw [element?_eq_some_iff_kind?, kind?_push, if_neg (Nat.ne_of_lt (lt_size_of_contains live)),
        ← element?_eq_some_iff_kind?, found]
    change (create { kind := .text (first :: rest) } >>= fun text => appendChild id text) document =
      .error (.voidElement data.tag) _
    rw [bind_of_ok (create_run _)]
    exact appendChild_run_problem (appendProblem_void foundStill void _)

theorem setTextContent_run_text {id : NodeId} (text : document.isText id = true)
    (content : Text) :
    setTextContent id content document = .ok () (document.withText id content) := by
  obtain ⟨node, old, there, kind⟩ := isText_iff.mp text
  rw [setTextContent, bind_of_ok (node_run there), kind]
  exact updateNode_run there _

theorem setTextContent_run_missing {id : NodeId} (missing : document.node? id = none)
    (content : Text) :
    setTextContent id content document = .error (.missingNode id) document := by
  rw [setTextContent, bind_of_error (node_run_missing missing)]

end Edit

/-! ## Data -/

theorem Document.Forest.withData (forest : document.Forest) {id : NodeId} {data : ElementData}
    (found : document.element? id = some data) {change : ElementData → ElementData}
    (sameTag : (change data).tag = data.tag) : (document.withData id change).Forest where
  linked := by
    intro child parent
    rw [children_withData, parent?_withData, forest.linked]
  listedOnce parent := by
    rw [children_withData]
    exact forest.listedOnce parent
  hosts := by
    intro child parent step
    rw [parent?_withData] at step
    obtain ⟨host, hostFound, content⟩ := forest.hosts step
    by_cases own : parent = id
    · subst own
      rw [found, Option.some.injEq] at hostFound
      exact ⟨change data, element?_withData found change, by rw [sameTag, hostFound, content]⟩
    · refine ⟨host, ?_, content⟩
      rw [element?_eq_some_iff_kind?, kind?_withData found, if_neg own,
        ← element?_eq_some_iff_kind?, hostFound]
  grounded := by
    apply grounded_of_fewer forest.grounded
    intro child parent step
    rwa [parent?_withData] at step

theorem Document.Forest.withText (forest : document.Forest) {id : NodeId}
    (text : document.isText id = true) (content : Text) : (document.withText id content).Forest where
  linked := by
    intro child parent
    rw [children_withText, parent?_withText, forest.linked]
  listedOnce parent := by
    rw [children_withText]
    exact forest.listedOnce parent
  hosts := by
    intro child parent step
    rw [parent?_withText] at step
    obtain ⟨node, old, there, _⟩ := isText_iff.mp text
    refine mayHost_of_element?_eq (element?_congr ?_) (forest.hosts step)
    rw [kind?_withText (contains_iff.mpr ⟨node, there⟩), if_neg]
    rintro rfl
    obtain ⟨data, found, _⟩ := forest.hosts step
    rw [not_isText_of_element? found] at text
    cases text
  grounded := by
    apply grounded_of_fewer forest.grounded
    intro child parent step
    rwa [parent?_withText] at step

namespace Edit

theorem createElement_run {tag : Text} (valid : isTagName tag = true) :
    createElement tag document =
      .ok document.slots.size (document.push { kind := .element { tag := Text.lowered tag } }) := by
  rw [createElement, if_pos valid, create_run]

theorem createElement_run_invalid {tag : Text} (invalid : ¬ isTagName tag = true) :
    createElement tag document = .error (.invalidTagName tag) document := by
  rw [createElement, if_neg invalid]
  rfl

theorem setAttribute_run {id : NodeId} {data : ElementData}
    (found : document.element? id = some data) {name : Text} (valid : isAttributeName name = true)
    (value : Text) :
    setAttribute id name value document =
      .ok () (document.withData id fun data => data.setAttribute (Text.lowered name) value) := by
  rw [setAttribute, if_pos valid, updateElement_run found]

theorem setAttribute_run_invalid {name : Text} (invalid : ¬ isAttributeName name = true)
    (id : NodeId) (value : Text) :
    setAttribute id name value document = .error (.invalidAttributeName name) document := by
  rw [setAttribute, if_neg invalid]
  rfl

theorem setAttribute_run_missing {id : NodeId} (missing : document.element? id = none) {name : Text}
    (valid : isAttributeName name = true) (value : Text) :
    setAttribute id name value document = .error (elementProblem document id) document := by
  rw [setAttribute, if_pos valid, updateElement_run_missing missing]

theorem removeAttribute_run {id : NodeId} {data : ElementData}
    (found : document.element? id = some data) (name : Text) :
    removeAttribute id name document = .ok (data.attributes.get? name)
      (document.withData id fun data =>
        { data with attributes := data.attributes.erase name }) := by
  rw [removeAttribute, bind_of_ok (element_run found), bind_of_ok (updateElement_run found _)]
  rfl

theorem removeAttribute_run_missing {id : NodeId} (missing : document.element? id = none)
    (name : Text) :
    removeAttribute id name document = .error (elementProblem document id) document := by
  rw [removeAttribute, bind_of_error (element_run_missing missing)]

end Edit

end PageCompiler.Markup
