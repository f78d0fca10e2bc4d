import PageCompiler.Proofs.Markup.Grafts

/-!
# Growth of one element

While an element is built, nothing else in the document changes: the element has no parent yet, its data may
change, and children come to the end of its list. What was there before keeps its tree.
-/

namespace PageCompiler.Markup.Document

/-- Whether one document grew out of another at an element without a parent, which has this data now and
got these children. -/
structure Grows (old : Document) (host : NodeId) (data : ElementData) (added : List NodeId)
    (new : Document) : Prop where
  forest : new.Forest
  size : old.slots.size ≤ new.slots.size
  kinds : ∀ id < old.slots.size, id ≠ host → new.kind? id = old.kind? id
  parents : ∀ id < old.slots.size, id ≠ host → new.parent? id = old.parent? id
  lists : ∀ id < old.slots.size, id ≠ host → new.children id = old.children id
  found : new.element? host = some data
  orphan : old.parent? host = none
  orphanStill : new.parent? host = none
  list : new.children host = old.children host ++ added

variable {document middle last : Document} {host element : NodeId} {data changed other : ElementData}
  {added more : List NodeId}

namespace Grows

theorem none (forest : document.Forest) (found : document.element? host = some data)
    (orphan : document.parent? host = none) : document.Grows host data [] document where
  forest := forest
  size := Nat.le_refl _
  kinds _ _ _ := rfl
  parents _ _ _ := rfl
  lists _ _ _ := rfl
  found := found
  orphan := orphan
  orphanStill := orphan
  list := (List.append_nil _).symm

theorem trans (first : document.Grows host data added middle)
    (second : middle.Grows host changed more last) :
    document.Grows host changed (added ++ more) last where
  forest := second.forest
  size := first.size.trans second.size
  kinds id inside apart :=
    (second.kinds id (inside.trans_le first.size) apart).trans (first.kinds id inside apart)
  parents id inside apart :=
    (second.parents id (inside.trans_le first.size) apart).trans (first.parents id inside apart)
  lists id inside apart :=
    (second.lists id (inside.trans_le first.size) apart).trans (first.lists id inside apart)
  found := second.found
  orphan := first.orphan
  orphanStill := second.orphanStill
  list := by rw [second.list, first.list, List.append_assoc]

/-- To what was there before, a new element is nothing. -/
theorem beside (grows : document.Grows element other more last) (new : document.slots.size ≤ element)
    (found : document.element? host = some data) (orphan : document.parent? host = Option.none) :
    document.Grows host data [] last := by
  have inside : host < document.slots.size := lt_size_of_contains (contains_of_element? found)
  have apart {id : NodeId} (old : id < document.slots.size) : id ≠ element :=
    Nat.ne_of_lt (old.trans_le new)
  refine ⟨grows.forest, grows.size, ?_, ?_, ?_, ?_, orphan, ?_, ?_⟩
  · exact fun id old _ => grows.kinds id old (apart old)
  · exact fun id old _ => grows.parents id old (apart old)
  · exact fun id old _ => grows.lists id old (apart old)
  · rw [← found]
    exact element?_congr (grows.kinds host inside (apart inside))
  · rw [grows.parents host inside (apart inside), orphan]
  · rw [grows.lists host inside (apart inside), List.append_nil]

/-- What is not the element keeps its tree. -/
theorem tree? (grows : document.Grows host data added last) (forest : document.Forest) {id : NodeId}
    (inside : id < document.slots.size) (apart : id ≠ host) : last.tree? id = document.tree? id := by
  let kept (id : NodeId) : Prop := id < document.slots.size ∧ id ≠ host
  have closed {id child : NodeId} (_ : kept id) (listed : child ∈ document.children id) : kept child := by
    refine ⟨lt_size_of_contains (forest.contains_child listed), fun same => ?_⟩
    have step := forest.linked.mp listed
    rw [same, grows.orphan] at step
    cases step
  have member : kept id := ⟨inside, apart⟩
  exact tree?_eq_of_kept forest grows.forest (fun kept => grows.kinds _ kept.1 kept.2)
    (fun kept => grows.lists _ kept.1 kept.2) closed member

/-- Nor do the trees of the children change that the element has already. -/
theorem trees (grows : document.Grows host data added last) (forest : document.Forest)
    {ids : List NodeId} (listed : ids ⊆ document.children host) :
    last.trees ids = document.trees ids := by
  apply trees_congr
  intro id member
  have step := forest.linked.mp (listed member)
  apply grows.tree? forest
  · exact lt_size_of_contains (contains_of_parent? step)
  · intro same
    rw [same, grows.orphan] at step
    cases step

theorem trees_append (grows : document.Grows host data added middle)
    (further : middle.Grows host changed more last) :
    last.trees (added ++ more) = middle.trees added ++ last.trees more := by
  rw [Document.trees_append, further.trees grows.forest]
  rw [grows.list]
  exact List.subset_append_right _ _

/-- A finished element is put below the element that it was built for. -/
theorem adopted (grows : document.Grows element other more last) (new : document.slots.size ≤ element)
    (found : document.element? host = some data) (orphan : document.parent? host = Option.none)
    (fillable : isVoidElement data.tag = false) :
    Edit.appendProblem last host element = Option.none ∧
      document.Grows host data [element] (last.moved host element) ∧
      (last.moved host element).tree? element = last.tree? element := by
  have inside := lt_size_of_contains (contains_of_element? found)
  have beside := grows.beside new found orphan
  have liveHost := contains_of_element? beside.found
  have live := contains_of_element? grows.found
  have apart : host ≠ element := Nat.ne_of_lt (inside.trans_le new)
  have outside : ¬ last.Below host element := fun below => apart (eq_of_below_top below beside.orphanStill)
  have possible : last.MayHost host := ⟨data, beside.found, fillable⟩
  have lists (id : NodeId) := grows.forest.children_moved_orphan liveHost grows.orphanStill id
  have moved := grows.forest.moved possible live outside
  refine ⟨(Edit.appendProblem_eq_none_iff grows.forest).mpr ⟨possible, live, outside⟩, ?_, ?_⟩
  · refine ⟨moved, ?_, ?_, ?_, ?_, ?_, orphan, ?_, ?_⟩
    · rw [size_moved]
      exact grows.size
    · intro id old notHost
      rw [Document.moved, kind?_relinked]
      exact beside.kinds id old notHost
    · intro id old notHost
      rw [parent?_moved live, if_neg (Nat.ne_of_lt (old.trans_le new))]
      exact beside.parents id old notHost
    · intro id old notHost
      rw [lists, if_neg notHost, List.append_nil]
      exact beside.lists id old notHost
    · rw [Document.moved, element?_relinked]
      exact beside.found
    · rw [parent?_moved live, if_neg apart]
      exact beside.orphanStill
    · rw [lists, if_pos rfl, beside.list, List.append_nil]
  · have closed {id child : NodeId} (_ : id ≠ host) (listed : child ∈ last.children id) :
        child ≠ host := by
      intro same
      have step := grows.forest.linked.mp listed
      rw [same, beside.orphanStill] at step
      cases step
    apply tree?_eq_of_kept grows.forest moved ?_ ?_ closed apart.symm
    · intro id _
      rw [Document.moved, kind?_relinked]
    · intro id notHost
      rw [lists, if_neg notHost, List.append_nil]

end Grows

theorem Forest.grows_pushed (forest : document.Forest) (data : ElementData) :
    document.Grows document.slots.size data [] (document.push { kind := .element data }) where
  forest := forest.pushed _
  size := by simp
  kinds id inside _ := by rw [kind?_push, if_neg (Nat.ne_of_lt inside)]
  parents id _ _ := parent?_push _ id
  lists id _ _ := children_push _ id
  found := by rw [element?_eq_some_iff_kind?, kind?_push, if_pos rfl]
  orphan := by rw [← parent?_push (.element data), parent?_pushed]
  orphanStill := parent?_pushed _
  list := by rw [children_push, List.append_nil]

theorem trees_new_text (host : NodeId) (content : Text) :
    (document.grafted host (.text content)).trees [document.slots.size] = [.text content] := by
  apply trees_singleton
  apply tree?_text
  rw [kind?_grafted, if_pos rfl]

variable (forest : document.Forest) (found : document.element? host = some data)
  (orphan : document.parent? host = none)

include forest found orphan

theorem Forest.grows_withData {change : ElementData → ElementData}
    (sameTag : (change data).tag = data.tag) :
    document.Grows host (change data) [] (document.withData host change) where
  forest := forest.withData found sameTag
  size := by simp
  kinds id _ apart := by rw [kind?_withData found, if_neg apart]
  parents id _ _ := parent?_withData _ _ id
  lists id _ _ := children_withData _ _ id
  found := element?_withData found change
  orphan := orphan
  orphanStill := by rw [parent?_withData, orphan]
  list := by rw [children_withData, List.append_nil]

/-- A text that is put into the element. -/
theorem Forest.grows_grafted (fillable : isVoidElement data.tag = false) (content : Text) :
    document.Grows host data [document.slots.size] (document.grafted host (.text content)) := by
  have live := contains_of_element? found
  have inside := lt_size_of_contains live
  refine ⟨forest.grafted ⟨data, found, fillable⟩ _, ?_, ?_, ?_, ?_, ?_, orphan, ?_, ?_⟩
  · simp [size_grafted]
  · intro id old _
    rw [kind?_grafted, if_neg (Nat.ne_of_lt old)]
  · intro id old _
    rw [parent?_grafted, if_neg (Nat.ne_of_lt old)]
  · intro id _ apart
    rw [children_grafted forest live, if_neg apart, List.append_nil]
  · rw [← found]
    apply element?_congr
    rw [kind?_grafted, if_neg (Nat.ne_of_lt inside)]
  · rw [parent?_grafted, if_neg (Nat.ne_of_lt inside), orphan]
  · rw [children_grafted forest live, if_pos rfl]

/-- A text that is made and removed again. -/
theorem Forest.grows_discarded (content : Text) :
    document.Grows host data []
      ((document.push { kind := .text content }).free [document.slots.size]) := by
  refine ⟨forest.discarded _, by simp, fun id _ _ => kind?_discarded _ id,
    fun id _ _ => parent?_discarded _ id, fun id _ _ => children_discarded _ id, ?_, orphan, ?_, ?_⟩
  · rw [← found]
    exact element?_congr (kind?_discarded _ host)
  · rw [parent?_discarded, orphan]
  · rw [children_discarded, List.append_nil]

end PageCompiler.Markup.Document
