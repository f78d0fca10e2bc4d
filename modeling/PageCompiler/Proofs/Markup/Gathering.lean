import PageCompiler.Proofs.Markup.Edits
import Mathlib.Data.List.Dedup

/-!
# Gathered nodes

Nodes that are appended to one element after another end up in the order in which each was appended last,
after the children that the element had and that are not among them. Some of the nodes were there before,
the others are new. What may be appended does not change on the way: no node above the element can come
below it.
-/

namespace PageCompiler.Markup.Document

variable {document middle last : Document} {host : NodeId} {nodes more : List NodeId}

/-- What a document becomes when nodes are appended to one host, some of which may be new. -/
structure Gathers (document : Document) (host : NodeId) (nodes : List NodeId) (changed : Document) :
    Prop where
  forest : changed.Forest
  size : document.slots.size ≤ changed.slots.size
  list : changed.children host = (document.children host).filter (· ∉ nodes) ++ nodes.dedup
  lists : ∀ id, id ≠ host → changed.children id = (document.children id).filter (· ∉ nodes)
  parents : ∀ id, changed.parent? id = if id ∈ nodes then some host else document.parent? id
  kinds : ∀ id < document.slots.size, changed.kind? id = document.kind? id
  live : ∀ id, changed.contains id = true ↔ document.contains id = true ∨ id ∈ nodes
  old : ∀ id ∈ nodes, id < document.slots.size → document.contains id = true
  new : (nodes.filter (document.slots.size ≤ ·)).Nodup

/-- Of two lists put together, the first keeps the last occurrences that the second does not have. -/
theorem dedup_append_eq (nodes more : List NodeId) :
    (nodes ++ more).dedup = nodes.dedup.filter (· ∉ more) ++ more.dedup := by
  induction nodes with
  | nil => rfl
  | cons id nodes ih =>
    by_cases again : id ∈ nodes
    · rw [List.cons_append, List.dedup_cons_of_mem (List.mem_append_left more again), ih,
        List.dedup_cons_of_mem again]
    · rw [List.dedup_cons_of_notMem again]
      by_cases later : id ∈ more
      · rw [List.cons_append, List.dedup_cons_of_mem (List.mem_append_right nodes later), ih,
          List.filter_cons_of_neg (by simpa using later)]
      · have absent : id ∉ nodes ++ more := by
          rw [List.mem_append, not_or]
          exact ⟨again, later⟩
        rw [List.cons_append, List.dedup_cons_of_notMem absent, ih,
          List.filter_cons_of_pos (by simpa using later), List.cons_append]

theorem filter_filter_notMem (ids : List NodeId) :
    (ids.filter (· ∉ nodes)).filter (· ∉ more) = ids.filter (· ∉ nodes ++ more) := by
  rw [List.filter_filter]
  apply List.filter_congr
  intro id _
  simp [Bool.and_comm]

namespace Gathers

theorem none (forest : document.Forest) : document.Gathers host [] document where
  forest := forest
  size := Nat.le_refl _
  list := by simp
  lists := by simp
  parents := by simp
  kinds _ _ := rfl
  live := by simp
  old := by simp
  new := by simp

/-- A node that was there is moved to the host. -/
theorem moved {child : NodeId} (forest : document.Forest)
    (possible : Edit.appendProblem document host child = Option.none) :
    document.Gathers host [child] (document.moved host child) := by
  obtain ⟨mayHost, live, outside⟩ := (Edit.appendProblem_eq_none_iff forest).mp possible
  have hostLive := contains_of_element? mayHost.choose_spec.1
  have without (ids : List NodeId) : ids.filter (· != child) = ids.filter (· ∉ [child]) := by
    apply List.filter_congr
    intro id _
    rw [Bool.eq_iff_iff]
    simp
  refine ⟨forest.moved mayHost live outside, (size_moved host child).ge, ?_, ?_, ?_, ?_, ?_, ?_, ?_⟩
  · rw [children_moved hostLive, if_pos rfl, without]
    rfl
  · intro id apart
    rw [children_moved hostLive, if_neg apart, List.append_nil, without]
  · intro id
    rw [parent?_moved live]
    simp only [List.mem_singleton]
  · exact fun id _ => kind?_relinked _ _ id
  · intro id
    rw [Document.moved, contains_relinked, List.mem_singleton]
    refine ⟨Or.inl, ?_⟩
    rintro (there | rfl)
    · exact there
    · exact live
  · intro id member _
    rwa [List.mem_singleton.mp member]
  · exact (List.nodup_singleton child).filter _

/-- A new node is put below the host. -/
theorem grafted (forest : document.Forest) (mayHost : document.MayHost host) (kind : NodeKind) :
    document.Gathers host [document.slots.size] (document.grafted host kind) := by
  have hostLive := contains_of_element? mayHost.choose_spec.1
  have lists := children_grafted forest hostLive kind
  have all (id : NodeId) :
      (document.children id).filter (· ∉ [document.slots.size]) = document.children id := by
    rw [List.filter_eq_self]
    intro child listed
    have inside := lt_size_of_contains (forest.contains_child listed)
    simp [Nat.ne_of_lt inside]
  refine ⟨forest.grafted mayHost kind, ?_, ?_, ?_, ?_, ?_, ?_, ?_, ?_⟩
  · rw [size_grafted]
    exact Nat.le_succ _
  · rw [lists, if_pos rfl, all]
    rfl
  · intro id apart
    rw [lists, if_neg apart, List.append_nil, all]
  · intro id
    rw [parent?_grafted]
    simp only [List.mem_singleton]
  · intro id inside
    rw [kind?_grafted, if_neg (Nat.ne_of_lt inside)]
  · intro id
    rw [Document.grafted, Document.moved, contains_relinked, contains_push, List.mem_singleton, or_comm]
  · intro id member inside
    rw [List.mem_singleton.mp member] at inside
    exact absurd inside (Nat.lt_irrefl _)
  · exact (List.nodup_singleton _).filter _

/-- A new node is made and removed again. -/
theorem discarded (forest : document.Forest) (kind : NodeKind) :
    document.Gathers host [] ((document.push { kind }).free [document.slots.size]) := by
  refine ⟨forest.discarded kind, ?_, ?_, ?_, ?_, fun id _ => kind?_discarded kind id, ?_, ?_, ?_⟩
  · rw [size_free, size_push]
    exact Nat.le_succ _
  · simp [children_discarded]
  · simp [children_discarded]
  · simp [parent?_discarded]
  · intro id
    rw [contains_congr (kind?_discarded kind id)]
    simp
  · simp
  · simp

/-- Nodes that came later were there from the start, or are new after all that came before. -/
theorem trans (first : document.Gathers host nodes middle) (second : middle.Gathers host more last)
    (known : ∀ id ∈ more, id < document.slots.size ∨ middle.slots.size ≤ id) :
    document.Gathers host (nodes ++ more) last where
  forest := second.forest
  size := first.size.trans second.size
  list := by
    rw [second.list, first.list, List.filter_append, filter_filter_notMem, dedup_append_eq,
      List.append_assoc]
  lists id apart := by rw [second.lists id apart, first.lists id apart, filter_filter_notMem]
  parents id := by
    rw [second.parents, first.parents]
    by_cases later : id ∈ more <;> by_cases before : id ∈ nodes <;> simp [later, before]
  kinds id inside := (second.kinds id (inside.trans_le first.size)).trans (first.kinds id inside)
  live id := by rw [second.live, first.live, List.mem_append, or_assoc]
  old id member inside := by
    rcases List.mem_append.mp member with before | later
    · exact first.old id before inside
    · rcases (first.live id).mp (second.old id later (inside.trans_le first.size)) with there | before
      · exact there
      · exact first.old id before inside
  new := by
    have later : more.filter (document.slots.size ≤ ·) = more.filter (middle.slots.size ≤ ·) := by
      apply List.filter_congr
      intro id member
      rw [decide_eq_decide]
      refine ⟨fun new => ?_, first.size.trans⟩
      exact (known id member).resolve_left (Nat.not_lt_of_le new)
    rw [List.filter_append, later]
    refine first.new.append second.new ?_
    intro id before after
    rw [List.mem_filter, decide_eq_true_eq] at before after
    have inside := lt_size_of_contains ((first.live id).mpr (Or.inr before.1))
    exact absurd inside (Nat.not_lt_of_le after.2)

/-! ## What may be appended -/

/-- Nothing that was appended is the host or above it. -/
theorem notMem_of_below (gathers : document.Gathers host nodes last) {id : NodeId}
    (below : last.Below host id) : id ∉ nodes := by
  intro member
  have step := gathers.parents id
  rw [if_pos member] at step
  exact gathers.forest.not_below_child step below

theorem below_host_iff (gathers : document.Gathers host nodes last) (id : NodeId) :
    last.Below host id ↔ document.Below host id := by
  -- Both ways lead up from the host, and on the new one no parent has changed.
  have same {id : NodeId} (below : last.Below host id) : last.parent? id = document.parent? id := by
    rw [gathers.parents, if_neg (gathers.notMem_of_below below)]
  constructor
  · intro below
    induction below with
    | refl => exact below_refl host
    | tail lower step ih =>
      rw [same lower] at step
      exact below_trans ih (below_of_parent? step)
  · intro below
    induction below with
    | refl => exact below_refl host
    | tail lower step ih =>
      rw [← same ih] at step
      exact below_trans ih (below_of_parent? step)

theorem element?_host (gathers : document.Gathers host nodes last) :
    last.element? host = document.element? host := by
  apply element?_congr
  by_cases inside : host < document.slots.size
  · exact gathers.kinds host inside
  · have missing := node?_of_size_le (Nat.le_of_not_lt inside)
    have unmade : ¬ last.contains host = true := by
      rw [gathers.live, not_or]
      refine ⟨fun there => inside (lt_size_of_contains there), ?_⟩
      exact gathers.notMem_of_below (below_refl host)
    rw [kind?, kind?, missing, Option.map_none, Option.map_eq_none_iff]
    simpa [contains] using unmade

theorem mayHost_iff (gathers : document.Gathers host nodes last) :
    last.MayHost host ↔ document.MayHost host := by
  rw [MayHost, MayHost, gathers.element?_host]

theorem contains_iff (gathers : document.Gathers host nodes last) {id : NodeId}
    (inside : id < document.slots.size) : last.contains id = true ↔ document.contains id = true := by
  rw [gathers.live, or_iff_left_iff_imp]
  exact fun member => gathers.old id member inside

/-- Whether a node can be appended to the host is the same after others were. -/
theorem appendProblem_iff (gathers : document.Gathers host nodes last) (forest : document.Forest)
    {id : NodeId} (inside : id < document.slots.size) :
    Edit.appendProblem last host id = Option.none ↔ Edit.appendProblem document host id = Option.none := by
  rw [Edit.appendProblem_eq_none_iff gathers.forest, Edit.appendProblem_eq_none_iff forest,
    gathers.mayHost_iff, gathers.contains_iff inside, gathers.below_host_iff]

end Gathers

end PageCompiler.Markup.Document
