import PageCompiler.Proofs.Markup.Forest

/-!
# Edits of links

In a forest each edit of links has one outcome that can be written down at once: the document with
the node taken out, with the children released, with the node moved, or without a whole family.
Every outcome is a forest again.
-/

namespace PageCompiler.Markup

namespace Document

variable {document : Document}

/-- The document with a node taken away from its parent. -/
def detached (document : Document) (id : NodeId) : Document :=
  document.relinked (fun other parent => if other = id then none else parent)
    fun _ children => children.filter (· != id)

/-- The document with the children of a node released. -/
def cleared (document : Document) (id : NodeId) : Document :=
  document.relinked (fun _ parent => if parent = some id then none else parent)
    fun other children => if other = id then [] else children

/-- The document with a node moved to the end of the children of another one. -/
def moved (document : Document) (parent child : NodeId) : Document :=
  document.relinked (fun other old => if other = child then some parent else old)
    fun other children =>
      children.filter (· != child) ++ if other = parent then [child] else []

theorem parent?_detached (id other : NodeId) :
    (document.detached id).parent? other = if other = id then none else document.parent? other := by
  rw [detached, parent?_relinked]
  by_cases live : document.contains other = true
  · rw [if_pos live]
  · rw [if_neg live, parent?_of_not_contains live, ite_self]

theorem children_detached (id other : NodeId) :
    (document.detached id).children other = (document.children other).filter (· != id) := by
  rw [detached, children_relinked]
  by_cases live : document.contains other = true
  · rw [if_pos live]
  · rw [if_neg live, children_of_not_contains live, List.filter_nil]

theorem parent?_cleared (id other : NodeId) :
    (document.cleared id).parent? other =
      if document.parent? other = some id then none else document.parent? other := by
  rw [cleared, parent?_relinked]
  by_cases live : document.contains other = true
  · rw [if_pos live]
  · rw [if_neg live, parent?_of_not_contains live, ite_self]

theorem children_cleared (id other : NodeId) :
    (document.cleared id).children other = if other = id then [] else document.children other := by
  rw [cleared, children_relinked]
  by_cases live : document.contains other = true
  · rw [if_pos live]
  · rw [if_neg live, children_of_not_contains live, ite_self]

theorem parent?_moved {child : NodeId} (live : document.contains child = true)
    (parent other : NodeId) :
    (document.moved parent child).parent? other =
      if other = child then some parent else document.parent? other := by
  rw [moved, parent?_relinked]
  by_cases there : document.contains other = true
  · rw [if_pos there]
  · have distinct : other ≠ child := by
      rintro rfl
      exact there live
    rw [if_neg there, if_neg distinct, parent?_of_not_contains there]

theorem children_moved {parent : NodeId} (live : document.contains parent = true)
    (child other : NodeId) :
    (document.moved parent child).children other =
      (document.children other).filter (· != child) ++ if other = parent then [child] else [] := by
  rw [moved, children_relinked]
  by_cases there : document.contains other = true
  · rw [if_pos there]
  · have distinct : other ≠ parent := by
      rintro rfl
      exact there live
    rw [if_neg there, if_neg distinct, children_of_not_contains there]
    rfl

/-- The document with a new node at the end of the children of another one. -/
def grafted (document : Document) (host : NodeId) (kind : NodeKind) : Document :=
  (document.push { kind }).moved host document.slots.size

theorem contains_push (kind : NodeKind) (id : NodeId) :
    (document.push { kind }).contains id = true ↔
      id = document.slots.size ∨ document.contains id = true := by
  rw [contains, node?_push]
  by_cases fresh : id = document.slots.size
  · simp [fresh]
  · simp [fresh, contains]

theorem contains_pushed (kind : NodeKind) :
    (document.push { kind }).contains document.slots.size = true :=
  (contains_push kind _).mpr (Or.inl rfl)

theorem parent?_pushed (kind : NodeKind) :
    (document.push { kind }).parent? document.slots.size = none := by
  rw [parent?_push, parent?, node?_of_size_le (Nat.le_refl _)]
  rfl

theorem children_pushed (kind : NodeKind) :
    (document.push { kind }).children document.slots.size = [] := by
  rw [children_push, children_of_node?_none (node?_of_size_le (Nat.le_refl _))]

theorem size_moved (parent child : NodeId) :
    (document.moved parent child).slots.size = document.slots.size := by
  simp [moved, relinked]

theorem size_grafted (host : NodeId) (kind : NodeKind) :
    (document.grafted host kind).slots.size = document.slots.size + 1 := by
  rw [grafted, size_moved, size_push]

theorem kind?_grafted (host : NodeId) (kind : NodeKind) (id : NodeId) :
    (document.grafted host kind).kind? id =
      if id = document.slots.size then some kind else document.kind? id := by
  rw [grafted, moved, kind?_relinked, kind?_push]

theorem parent?_grafted (host : NodeId) (kind : NodeKind) (id : NodeId) :
    (document.grafted host kind).parent? id =
      if id = document.slots.size then some host else document.parent? id := by
  rw [grafted, parent?_moved (contains_pushed kind), parent?_push]

theorem children_grafted (forest : document.Forest) {host : NodeId}
    (live : document.contains host = true) (kind : NodeKind) (id : NodeId) :
    (document.grafted host kind).children id =
      document.children id ++ if id = host then [document.slots.size] else [] := by
  have liveStill := (contains_push kind host).mpr (Or.inr live)
  rw [grafted, children_moved liveStill, children_push]
  have old : (document.children id).filter (· != document.slots.size) = document.children id := by
    rw [List.filter_eq_self]
    intro child listed
    have inside := lt_size_of_contains (forest.contains_child listed)
    rw [bne_iff_ne]
    exact Nat.ne_of_lt inside
  rw [old]

/-! ## Outcomes are forests -/

theorem mayHost_of_element?_eq {first second : Document} {id other : NodeId}
    (same : second.element? other = first.element? id) (host : first.MayHost id) :
    second.MayHost other := by
  obtain ⟨data, found, content⟩ := host
  exact ⟨data, same.trans found, content⟩

/-- Nothing is below a new node. -/
theorem not_below_pushed (forest : document.Forest) {id : NodeId} (inside : id < document.slots.size)
    (kind : NodeKind) : ¬ (document.push { kind }).Below id document.slots.size := by
  intro below
  rcases below_iff_eq_or_child.mp below with same | ⟨child, _, step⟩
  · exact Nat.ne_of_lt inside same.symm
  · rw [parent?_push] at step
    exact Nat.lt_irrefl _ (lt_size_of_contains (forest.contains_parent step))

namespace Forest

theorem detached (forest : document.Forest) (id : NodeId) : (document.detached id).Forest where
  linked := by
    intro child parent
    rw [children_detached, parent?_detached, List.mem_filter, forest.linked]
    by_cases same : child = id <;> simp [same]
  listedOnce parent := by
    rw [children_detached]
    exact (forest.listedOnce parent).filter _
  hosts := by
    intro child parent step
    rw [parent?_detached] at step
    split at step
    · cases step
    · exact mayHost_of_element?_eq (element?_relinked _ _ _) (forest.hosts step)
  grounded := by
    apply grounded_of_fewer forest.grounded
    intro child parent step
    rw [parent?_detached] at step
    split at step
    · cases step
    · exact step

theorem cleared (forest : document.Forest) (id : NodeId) : (document.cleared id).Forest where
  linked := by
    intro child parent
    rw [children_cleared, parent?_cleared]
    by_cases own : parent = id
    · subst own
      by_cases step : document.parent? child = some parent <;> simp [step]
    · rw [if_neg own, forest.linked]
      by_cases released : document.parent? child = some id
      · simp [released, Ne.symm own]
      · simp [released]
  listedOnce parent := by
    rw [children_cleared]
    split
    · exact List.nodup_nil
    · exact forest.listedOnce parent
  hosts := by
    intro child parent step
    rw [parent?_cleared] at step
    split at step
    · cases step
    · exact mayHost_of_element?_eq (element?_relinked _ _ _) (forest.hosts step)
  grounded := by
    apply grounded_of_fewer forest.grounded
    intro child parent step
    rw [parent?_cleared] at step
    split at step
    · cases step
    · exact step

/-- Moving a node below one that is not below it makes no cycle: paths from outside the moved family
are the old ones, and every other path leads outside. -/
theorem grounded_moved (forest : document.Forest) {parent child : NodeId}
    (live : document.contains child = true) (outside : ¬ document.Below parent child) :
    WellFounded fun above id => (document.moved parent child).parent? id = some above := by
  have fromOutside : ∀ id, ¬ document.Below id child →
      Acc (fun above id => (document.moved parent child).parent? id = some above) id := by
    intro id
    induction id using forest.grounded.induction with
    | _ id ih =>
      intro apart
      refine Acc.intro id fun above step => ?_
      have distinct : id ≠ child := by
        rintro rfl
        exact apart (below_refl id)
      rw [parent?_moved live, if_neg distinct] at step
      exact ih above step fun lower => apart (below_trans (below_of_parent? step) lower)
  refine ⟨fun id => ?_⟩
  induction id using forest.grounded.induction with
  | _ id ih =>
    refine Acc.intro id fun above step => ?_
    rw [parent?_moved live] at step
    split at step
    · cases step
      exact fromOutside parent outside
    · exact ih above step

theorem moved (forest : document.Forest) {parent child : NodeId} (host : document.MayHost parent)
    (live : document.contains child = true) (outside : ¬ document.Below parent child) :
    (document.moved parent child).Forest where
  linked := by
    intro id above
    obtain ⟨data, found, _⟩ := host
    rw [children_moved (contains_of_element? found), parent?_moved live, List.mem_append,
      List.mem_filter, forest.linked]
    by_cases same : id = child
    · subst same
      by_cases below : above = parent
      · simp [below]
      · simp [below, Ne.symm below]
    · by_cases below : above = parent <;> simp [same, below]
  listedOnce above := by
    obtain ⟨data, found, _⟩ := host
    rw [children_moved (contains_of_element? found)]
    apply List.Nodup.append ((forest.listedOnce above).filter _)
    · split <;> simp
    · intro id old new
      split at new <;> simp_all
  hosts := by
    intro id above step
    rw [parent?_moved live] at step
    split at step
    · cases step
      exact mayHost_of_element?_eq (element?_relinked _ _ _) host
    · exact mayHost_of_element?_eq (element?_relinked _ _ _) (forest.hosts step)
  grounded := forest.grounded_moved live outside

theorem pushed (forest : document.Forest) (kind : NodeKind) :
    (document.push { kind }).Forest where
  linked := by
    intro child parent
    rw [children_push, parent?_push, forest.linked]
  listedOnce parent := by
    rw [children_push]
    exact forest.listedOnce parent
  hosts := by
    intro child parent step
    rw [parent?_push] at step
    have inside := lt_size_of_contains (forest.contains_parent step)
    refine mayHost_of_element?_eq (element?_congr ?_) (forest.hosts step)
    rw [kind?_push, if_neg (Nat.ne_of_lt inside)]
  grounded := by
    apply grounded_of_fewer forest.grounded
    intro child parent step
    rwa [parent?_push] at step

theorem grafted (forest : document.Forest) {host : NodeId} (possible : document.MayHost host)
    (kind : NodeKind) : (document.grafted host kind).Forest := by
  obtain ⟨data, found, content⟩ := possible
  have inside := lt_size_of_contains (contains_of_element? found)
  apply (forest.pushed kind).moved
  · refine mayHost_of_element?_eq (element?_congr ?_) ⟨data, found, content⟩
    rw [kind?_push, if_neg (Nat.ne_of_lt inside)]
  · exact contains_pushed kind
  · exact not_below_pushed forest inside kind

/-- Nodes can be removed together when no link leads from one that is removed to one that is not. -/
theorem freed (forest : document.Forest) {ids : List NodeId}
    (closed : ∀ child parent, document.parent? child = some parent → (child ∈ ids ↔ parent ∈ ids)) :
    (document.free ids).Forest where
  linked := by
    intro child parent
    rw [children_free, parent?_free]
    by_cases step : document.parent? child = some parent
    · have together := closed child parent step
      by_cases removed : child ∈ ids
      · simp [removed, together.mp removed]
      · have kept : parent ∉ ids := fun member => removed (together.mpr member)
        rw [if_neg removed, if_neg kept, forest.linked]
    · have apart : child ∉ document.children parent := fun listed => step (forest.linked.mp listed)
      by_cases removed : child ∈ ids <;> by_cases hostRemoved : parent ∈ ids <;>
        simp [removed, hostRemoved, step, apart]
  listedOnce parent := by
    rw [children_free]
    split
    · exact List.nodup_nil
    · exact forest.listedOnce parent
  hosts := by
    intro child parent step
    rw [parent?_free] at step
    split at step
    · cases step
    · next kept =>
      have hostKept : parent ∉ ids := fun member => kept ((closed child parent step).mpr member)
      refine mayHost_of_element?_eq (element?_congr ?_) (forest.hosts step)
      rw [kind?_free, if_neg hostKept]
  grounded := by
    apply grounded_of_fewer forest.grounded
    intro child parent step
    rw [parent?_free] at step
    split at step
    · cases step
    · exact step

theorem freed_family (forest : document.Forest) {id : NodeId} (orphan : document.parent? id = none) :
    (document.free (document.family id)).Forest := by
  apply forest.freed
  intro child parent step
  rw [forest.mem_family_iff, forest.mem_family_iff, below_iff_eq_or_parent]
  constructor
  · rintro (same | ⟨above, first, lower⟩)
    · rw [same, orphan] at step
      cases step
    · rw [step, Option.some.injEq] at first
      rw [first]
      exact lower
  · intro lower
    exact Or.inr ⟨parent, step, lower⟩

end Forest

end Document

end PageCompiler.Markup
