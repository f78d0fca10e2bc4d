import PageCompiler.Proofs.Engine.UserEdits
import PageCompiler.Proofs.Markup.Trees

/-!
# Engines that cannot be told apart

Two engines are alike when some of their user nodes are paired: paired nodes are of the same kind,
have paired children and paired hosts, and whatever does not belong to the page around the roots is
the same in both. The numbers of paired nodes may differ, and so may everything around the roots. An
edit of paired nodes leads from engines that are alike to engines that are alike.
-/

namespace PageCompiler

open Markup

/-- Two engines with one identity whose paired user nodes cannot be told apart. -/
structure Alike (uid : Nat) (pairs : NodeId → NodeId → Prop) (first second : Engine) : Prop where
  soundFirst : first.Sound
  soundSecond : second.Sound
  uidFirst : first.uid = uid
  uidSecond : second.uid = uid
  config : first.config = second.config
  ids : first.ids = second.ids
  buffers : first.buffers = second.buffers
  lastRendered : first.lastRendered = second.lastRendered
  phase : first.phase = second.phase
  users : ∀ {left right}, pairs left right → first.IsUserNode left ∧ second.IsUserNode right
  unique : ∀ {left right other otherRight}, pairs left right → pairs other otherRight →
    (left = other ↔ right = otherRight)
  kinds : ∀ {left right}, pairs left right →
    first.document.kind? left = second.document.kind? right
  lists : ∀ {left right}, pairs left right →
    List.Forall₂ pairs (first.document.children left) (second.document.children right)
  hosts : ∀ {left right}, pairs left right →
    Option.Rel pairs (first.host? left) (second.host? right)
  hooked : ∀ {left right}, pairs left right → (left ∈ first.hooked ↔ right ∈ second.hooked)

/-- A user node is the parent of a node exactly if it is the host. -/
theorem Engine.host?_eq_some_iff_of_user {engine : Engine} {id parent : NodeId}
    (user : engine.IsUserNode parent) :
    engine.host? id = some parent ↔ engine.document.parent? id = some parent := by
  rw [Engine.host?_eq_some_iff, and_iff_left]
  intro body
  exact user.2 (Engine.isShellNode_body body)

namespace Alike

variable {uid : Nat} {pairs : NodeId → NodeId → Prop} {first second : Engine}

theorem contains (alike : Alike uid pairs first second) {left right : NodeId}
    (pair : pairs left right) :
    first.document.contains left = second.document.contains right :=
  Document.contains_congr (alike.kinds pair)

theorem element? (alike : Alike uid pairs first second) {left right : NodeId}
    (pair : pairs left right) :
    first.document.element? left = second.document.element? right :=
  Document.element?_congr (alike.kinds pair)

theorem isText (alike : Alike uid pairs first second) {left right : NodeId}
    (pair : pairs left right) :
    first.document.isText left = second.document.isText right :=
  Document.isText_congr (alike.kinds pair)

/-- Paired nodes have the same tree. -/
theorem tree? (alike : Alike uid pairs first second) {left right : NodeId} (pair : pairs left right) :
    first.document.tree? left = second.document.tree? right :=
  Document.tree?_eq_of_related alike.soundFirst.document.forest alike.soundSecond.document.forest alike.kinds
    alike.lists pair

theorem markup (alike : Alike uid pairs first second) {left right : NodeId}
    (pair : pairs left right) :
    first.document.markup left = second.document.markup right := by
  rw [Document.markup, Document.markup, alike.tree? pair]

theorem biUnique (alike : Alike uid pairs first second) : Relator.BiUnique pairs :=
  ⟨fun _ _ _ pair otherPair => (alike.unique pair otherPair).mpr rfl,
    fun _ _ _ pair otherPair => (alike.unique pair otherPair).mp rfl⟩

theorem mem_iff_of_forall₂ (alike : Alike uid pairs first second) {lefts rights : List NodeId}
    (both : List.Forall₂ pairs lefts rights) {left right : NodeId} (pair : pairs left right) :
    left ∈ lefts ↔ right ∈ rights :=
  List.rel_mem alike.biUnique pair both

theorem users_of_forall₂ (alike : Alike uid pairs first second) {lefts rights : List NodeId}
    (both : List.Forall₂ pairs lefts rights) :
    (∀ id ∈ lefts, first.IsUserNode id) ∧ ∀ id ∈ rights, second.IsUserNode id := by
  induction both with
  | nil => exact ⟨(by simp), (by simp)⟩
  | cons head _ ih =>
    rw [List.forall_mem_cons, List.forall_mem_cons]
    exact ⟨⟨(alike.users head).1, ih.1⟩, (alike.users head).2, ih.2⟩

/-- Paired nodes have no hosts or paired ones. -/
theorem hosts_cases (alike : Alike uid pairs first second) {left right : NodeId}
    (pair : pairs left right) :
    (first.host? left = none ∧ second.host? right = none) ∨
      ∃ host otherHost, first.host? left = some host ∧ second.host? right = some otherHost ∧
        pairs host otherHost := by
  have above := alike.hosts pair
  generalize first.host? left = host at above
  generalize second.host? right = otherHost at above
  cases above with
  | some hostPair => exact Or.inr ⟨_, _, rfl, rfl, hostPair⟩
  | none => exact Or.inl ⟨rfl, rfl⟩

theorem host?_eq_some_iff (alike : Alike uid pairs first second) {left right host otherHost : NodeId}
    (pair : pairs left right) (hostPair : pairs host otherHost) :
    first.host? left = some host ↔ second.host? right = some otherHost := by
  rcases alike.hosts_cases pair with ⟨found, otherFound⟩ | ⟨above, other, found, otherFound, same⟩
  · simp [found, otherFound]
  · rw [found, otherFound, Option.some.injEq, Option.some.injEq]
    exact alike.unique same hostPair

theorem parent?_eq_some_iff (alike : Alike uid pairs first second)
    {left right parent otherParent : NodeId} (pair : pairs left right)
    (parentPair : pairs parent otherParent) :
    first.document.parent? left = some parent ↔
      second.document.parent? right = some otherParent := by
  rw [← Engine.host?_eq_some_iff_of_user (alike.users parentPair).1,
    ← Engine.host?_eq_some_iff_of_user (alike.users parentPair).2]
  exact alike.host?_eq_some_iff pair parentPair

theorem below_iff (alike : Alike uid pairs first second) {left right top otherTop : NodeId}
    (pair : pairs left right) (topPair : pairs top otherTop) :
    first.document.Below left top ↔ second.document.Below right otherTop := by
  induction left using alike.soundFirst.document.forest.grounded.induction generalizing right with
  | _ left ih =>
    rw [alike.soundFirst.below_user_iff (alike.users topPair).1,
      alike.soundSecond.below_user_iff (alike.users topPair).2]
    apply or_congr (alike.unique pair topPair)
    rcases alike.hosts_cases pair with ⟨found, otherFound⟩ | ⟨host, other, found, otherFound, same⟩
    · simp [found, otherFound]
    · simp only [found, otherFound, Option.some.injEq, exists_eq_left']
      exact ih host (Engine.host?_eq_some_iff.mp found).1 same

/-- A node can be put below another one in both engines or in none. -/
theorem appendProblem_eq_none_iff (alike : Alike uid pairs first second)
    {host otherHost child otherChild : NodeId} (hostPair : pairs host otherHost)
    (pair : pairs child otherChild) :
    Edit.appendProblem first.document host child = none ↔
      Edit.appendProblem second.document otherHost otherChild = none := by
  rw [Edit.appendProblem_eq_none_iff alike.soundFirst.document.forest,
    Edit.appendProblem_eq_none_iff alike.soundSecond.document.forest, alike.contains pair,
    alike.below_iff hostPair pair, Document.MayHost, Document.MayHost, alike.element? hostPair]

/-! ## Edits of paired nodes -/

section Edits

variable {changed otherChanged : Document}

/-- The engines are alike after an edit of each of them if the paired nodes are. -/
theorem edited (alike : Alike uid pairs first second) {wider : NodeId → NodeId → Prop}
    (edit : first.UserEdit changed) (otherEdit : second.UserEdit otherChanged)
    (users : ∀ {left right}, wider left right → pairs left right ∨
      (first.document.slots.size ≤ left ∧ left < changed.slots.size ∧
        second.document.slots.size ≤ right ∧ right < otherChanged.slots.size))
    (unique : ∀ {left right other otherRight}, wider left right → wider other otherRight →
      (left = other ↔ right = otherRight))
    (kinds : ∀ {left right}, wider left right → changed.kind? left = otherChanged.kind? right)
    (lists : ∀ {left right}, wider left right →
      List.Forall₂ wider (changed.children left) (otherChanged.children right))
    (hosts : ∀ {left right}, wider left right →
      Option.Rel wider ({ first with document := changed }.host? left)
        ({ second with document := otherChanged }.host? right)) :
    Alike uid wider { first with document := changed } { second with document := otherChanged } where
  soundFirst := edit.sound alike.soundFirst
  soundSecond := otherEdit.sound alike.soundSecond
  uidFirst := alike.uidFirst
  uidSecond := alike.uidSecond
  config := alike.config
  ids := alike.ids
  buffers := alike.buffers
  lastRendered := alike.lastRendered
  phase := alike.phase
  users := by
    intro left right pair
    rcases users pair with old | ⟨fresh, inside, otherFresh, otherInside⟩
    · exact ⟨edit.isUserNode alike.soundFirst (alike.users old).1,
        otherEdit.isUserNode alike.soundSecond (alike.users old).2⟩
    · refine ⟨⟨inside, ?_⟩, otherInside, ?_⟩
      · rw [edit.isShellNode_iff alike.soundFirst]
        intro owned
        have old := Document.lt_size_of_contains (alike.soundFirst.contains_of_isShellNode owned)
        exact absurd old (Nat.not_lt.mpr fresh)
      · rw [otherEdit.isShellNode_iff alike.soundSecond]
        intro owned
        have old := Document.lt_size_of_contains (alike.soundSecond.contains_of_isShellNode owned)
        exact absurd old (Nat.not_lt.mpr otherFresh)
  unique := unique
  kinds := kinds
  lists := lists
  hosts := hosts
  hooked := by
    intro left right pair
    rcases users pair with old | ⟨fresh, _, otherFresh, _⟩
    · exact alike.hooked old
    · constructor
      · intro member
        exact absurd (alike.soundFirst.hooked left member).1 (Nat.not_lt.mpr fresh)
      · intro member
        exact absurd (alike.soundSecond.hooked right member).1 (Nat.not_lt.mpr otherFresh)

theorem hosts_of_same_parents (alike : Alike uid pairs first second)
    {wider : NodeId → NodeId → Prop} (widens : ∀ {left right}, pairs left right → wider left right)
    {left right : NodeId} (pair : pairs left right)
    (same : changed.parent? left = first.document.parent? left)
    (otherSame : otherChanged.parent? right = second.document.parent? right) :
    Option.Rel wider ({ first with document := changed }.host? left)
      ({ second with document := otherChanged }.host? right) := by
  have kept : { first with document := changed }.host? left = first.host? left := by
    rw [Engine.host?, Engine.host?, same]
    rfl
  have otherKept : { second with document := otherChanged }.host? right = second.host? right := by
    rw [Engine.host?, Engine.host?, otherSame]
    rfl
  rw [kept, otherKept]
  rcases alike.hosts_cases pair with ⟨found, other⟩ | ⟨host, otherHost, found, other, hostPair⟩
  · rw [found, other]
    exact .none
  · rw [found, other]
    exact .some (widens hostPair)

theorem hosts_of_orphans {left right : NodeId} (orphan : changed.parent? left = none)
    (otherOrphan : otherChanged.parent? right = none) :
    Option.Rel pairs ({ first with document := changed }.host? left)
      ({ second with document := otherChanged }.host? right) := by
  rw [Engine.host?, Engine.host?, orphan, otherOrphan]
  exact .none

/-- The pairs with one more, of the next nodes of both engines. -/
def withNext (pairs : NodeId → NodeId → Prop) (first second : Engine) (left right : NodeId) : Prop :=
  pairs left right ∨ (left = first.document.slots.size ∧ right = second.document.slots.size)

theorem le_withNext : pairs ≤ withNext pairs first second :=
  fun _ _ => Or.inl

theorem ne_next (alike : Alike uid pairs first second) {left right : NodeId}
    (pair : pairs left right) :
    left ≠ first.document.slots.size ∧ right ≠ second.document.slots.size :=
  ⟨Nat.ne_of_lt (alike.users pair).1.1, Nat.ne_of_lt (alike.users pair).2.1⟩

theorem pushed (alike : Alike uid pairs first second) {kind : NodeKind}
    (formed : ∀ data, kind = .element data → data.WellFormed) :
    Alike uid (withNext pairs first second)
      { first with document := first.document.push { kind } }
      { second with document := second.document.push { kind } } := by
  apply alike.edited (alike.soundFirst.edit_pushed formed) (alike.soundSecond.edit_pushed formed)
  · rintro left right (old | ⟨rfl, rfl⟩)
    · exact Or.inl old
    · exact Or.inr ⟨Nat.le_refl _, by simp, Nat.le_refl _, by simp⟩
  · rintro left right other otherRight (old | ⟨rfl, rfl⟩) (otherOld | ⟨rfl, rfl⟩)
    · exact alike.unique old otherOld
    · exact iff_of_false (alike.ne_next old).1 (alike.ne_next old).2
    · exact iff_of_false (alike.ne_next otherOld).1.symm (alike.ne_next otherOld).2.symm
    · exact iff_of_true rfl rfl
  · rintro left right (old | ⟨rfl, rfl⟩)
    · rw [Document.kind?_push, Document.kind?_push, if_neg (alike.ne_next old).1,
        if_neg (alike.ne_next old).2, alike.kinds old]
    · rw [Document.kind?_push, Document.kind?_push, if_pos rfl, if_pos rfl]
  · rintro left right (old | ⟨rfl, rfl⟩)
    · rw [Document.children_push, Document.children_push]
      exact (alike.lists old).imp fun _ _ => Or.inl
    · rw [Document.children_pushed, Document.children_pushed]
      exact .nil
  · rintro left right (old | ⟨rfl, rfl⟩)
    · exact alike.hosts_of_same_parents Or.inl old (Document.parent?_push _ _)
        (Document.parent?_push _ _)
    · exact hosts_of_orphans (Document.parent?_pushed _) (Document.parent?_pushed _)

/-- An edit that changes no links keeps the pairs when paired nodes stay of the same kind. -/
theorem edited_data (alike : Alike uid pairs first second) (edit : first.UserEdit changed)
    (otherEdit : second.UserEdit otherChanged)
    (kinds : ∀ {left right}, pairs left right → changed.kind? left = otherChanged.kind? right)
    (children : ∀ id, changed.children id = first.document.children id)
    (otherChildren : ∀ id, otherChanged.children id = second.document.children id)
    (parents : ∀ id, changed.parent? id = first.document.parent? id)
    (otherParents : ∀ id, otherChanged.parent? id = second.document.parent? id) :
    Alike uid pairs { first with document := changed } { second with document := otherChanged } := by
  apply alike.edited edit otherEdit
  · exact Or.inl
  · exact alike.unique
  · exact kinds
  · intro left right pair
    rw [children, otherChildren]
    exact alike.lists pair
  · intro left right pair
    exact alike.hosts_of_same_parents id pair (parents left) (otherParents right)

theorem withData (alike : Alike uid pairs first second) {left right : NodeId} (pair : pairs left right)
    {data : ElementData} (found : first.document.element? left = some data)
    {change : ElementData → ElementData} (sameTag : (change data).tag = data.tag)
    (formed : (change data).WellFormed) :
    Alike uid pairs { first with document := first.document.withData left change }
      { second with document := second.document.withData right change } := by
  have otherFound := (alike.element? pair).symm.trans found
  apply alike.edited_data
    (alike.soundFirst.edit_withData (alike.users pair).1 found sameTag formed)
    (alike.soundSecond.edit_withData (alike.users pair).2 otherFound sameTag formed)
  · intro other otherRight otherPair
    rw [Document.kind?_withData found, Document.kind?_withData otherFound, alike.kinds otherPair]
    exact if_congr (alike.unique otherPair pair) rfl rfl
  · exact Document.children_withData _ _
  · exact Document.children_withData _ _
  · exact Document.parent?_withData _ _
  · exact Document.parent?_withData _ _

theorem withText (alike : Alike uid pairs first second) {left right : NodeId} (pair : pairs left right)
    (text : first.document.isText left = true) (content : Text) :
    Alike uid pairs { first with document := first.document.withText left content }
      { second with document := second.document.withText right content } := by
  have otherText := (alike.isText pair).symm.trans text
  have live : ∀ {document : Document} {id : NodeId}, document.isText id = true →
      document.contains id = true := by
    intro document id isText
    obtain ⟨node, _, there, _⟩ := Document.isText_iff.mp isText
    exact Document.contains_iff.mpr ⟨node, there⟩
  apply alike.edited_data (alike.soundFirst.edit_withText (alike.users pair).1 text content)
    (alike.soundSecond.edit_withText (alike.users pair).2 otherText content)
  · intro other otherRight otherPair
    rw [Document.kind?_withText (live text), Document.kind?_withText (live otherText),
      alike.kinds otherPair]
    exact if_congr (alike.unique otherPair pair) rfl rfl
  · exact Document.children_withText _ _
  · exact Document.children_withText _ _
  · exact Document.parent?_withText _ _
  · exact Document.parent?_withText _ _

theorem moved (alike : Alike uid pairs first second) {host otherHost child otherChild : NodeId}
    (hostPair : pairs host otherHost) (pair : pairs child otherChild)
    (possible : Edit.appendProblem first.document host child = none) :
    Alike uid pairs { first with document := first.document.moved host child }
      { second with document := second.document.moved otherHost otherChild } := by
  have otherPossible := (alike.appendProblem_eq_none_iff hostPair pair).mp possible
  obtain ⟨⟨data, found, _⟩, live, _⟩ :=
    (Edit.appendProblem_eq_none_iff alike.soundFirst.document.forest).mp possible
  have otherFound := (alike.element? hostPair).symm.trans found
  have otherLive := (alike.contains pair).symm.trans live
  apply alike.edited
    (alike.soundFirst.edit_moved (alike.users hostPair).1 (alike.users pair).1 possible)
    (alike.soundSecond.edit_moved (alike.users hostPair).2 (alike.users pair).2 otherPossible)
  · exact Or.inl
  · exact alike.unique
  · intro left right otherPair
    rw [Document.moved, Document.moved, Document.kind?_relinked, Document.kind?_relinked,
      alike.kinds otherPair]
  · intro left right otherPair
    rw [Document.children_moved (Document.contains_of_element? found),
      Document.children_moved (Document.contains_of_element? otherFound)]
    apply List.rel_append
    · refine List.rel_filter ?_ (alike.lists otherPair)
      intro id otherId same
      change (id != child) = true ↔ (otherId != otherChild) = true
      rw [bne_iff_ne, bne_iff_ne]
      exact not_congr (alike.unique same pair)
    · by_cases own : left = host
      · rw [if_pos own, if_pos ((alike.unique otherPair hostPair).mp own)]
        exact .cons pair .nil
      · rw [if_neg own, if_neg fun same => own ((alike.unique otherPair hostPair).mpr same)]
        exact .nil
  · intro left right otherPair
    by_cases own : left = child
    · have otherOwn := (alike.unique otherPair pair).mp own
      have step : (first.document.moved host child).parent? left = some host := by
        rw [Document.parent?_moved live, if_pos own]
      have otherStep : (second.document.moved otherHost otherChild).parent? right =
          some otherHost := by
        rw [Document.parent?_moved otherLive, if_pos otherOwn]
      have edit := alike.soundFirst.edit_moved (alike.users hostPair).1 (alike.users pair).1 possible
      have otherEdit :=
        alike.soundSecond.edit_moved (alike.users hostPair).2 (alike.users pair).2 otherPossible
      rw [(Engine.host?_eq_some_iff_of_user
          (edit.isUserNode alike.soundFirst (alike.users hostPair).1)).mpr step,
        (Engine.host?_eq_some_iff_of_user
          (otherEdit.isUserNode alike.soundSecond (alike.users hostPair).2)).mpr otherStep]
      exact .some hostPair
    · have otherOwn : right ≠ otherChild := fun same => own ((alike.unique otherPair pair).mpr same)
      exact alike.hosts_of_same_parents id otherPair (by rw [Document.parent?_moved live, if_neg own])
        (by rw [Document.parent?_moved otherLive, if_neg otherOwn])

theorem cleared (alike : Alike uid pairs first second) {left right : NodeId} (pair : pairs left right) :
    Alike uid pairs { first with document := first.document.cleared left }
      { second with document := second.document.cleared right } := by
  apply alike.edited (alike.soundFirst.edit_cleared (alike.users pair).1)
    (alike.soundSecond.edit_cleared (alike.users pair).2)
  · exact Or.inl
  · exact alike.unique
  · intro other otherRight otherPair
    rw [Document.cleared, Document.cleared, Document.kind?_relinked, Document.kind?_relinked,
      alike.kinds otherPair]
  · intro other otherRight otherPair
    rw [Document.children_cleared, Document.children_cleared]
    by_cases own : other = left
    · rw [if_pos own, if_pos ((alike.unique otherPair pair).mp own)]
      exact .nil
    · rw [if_neg own, if_neg fun same => own ((alike.unique otherPair pair).mpr same)]
      exact alike.lists otherPair
  · intro other otherRight otherPair
    have same := alike.parent?_eq_some_iff otherPair pair
    by_cases listed : first.document.parent? other = some left
    · exact hosts_of_orphans (by rw [Document.parent?_cleared, if_pos listed])
        (by rw [Document.parent?_cleared, if_pos (same.mp listed)])
    · exact alike.hosts_of_same_parents id otherPair (by rw [Document.parent?_cleared, if_neg listed])
        (by rw [Document.parent?_cleared, if_neg fun found => listed (same.mpr found)])

theorem freed (alike : Alike uid pairs first second) {ids otherIds : List NodeId}
    (both : List.Forall₂ pairs ids otherIds)
    (leaves : ∀ id ∈ ids,
      first.document.parent? id = none ∧ first.document.children id = [])
    (otherLeaves : ∀ id ∈ otherIds,
      second.document.parent? id = none ∧ second.document.children id = []) :
    Alike uid pairs { first with document := first.document.free ids }
      { second with document := second.document.free otherIds } := by
  obtain ⟨users, otherUsers⟩ := alike.users_of_forall₂ both
  apply alike.edited (alike.soundFirst.edit_freed (fun id member => (users id member).2) leaves)
    (alike.soundSecond.edit_freed (fun id member => (otherUsers id member).2) otherLeaves)
  · exact Or.inl
  · exact alike.unique
  · intro left right pair
    rw [Document.kind?_free, Document.kind?_free, alike.kinds pair]
    exact if_congr (alike.mem_iff_of_forall₂ both pair) rfl rfl
  · intro left right pair
    have same := alike.mem_iff_of_forall₂ both pair
    rw [Document.children_free, Document.children_free]
    by_cases member : left ∈ ids
    · rw [if_pos member, if_pos (same.mp member)]
      exact .nil
    · rw [if_neg member, if_neg fun found => member (same.mpr found)]
      exact alike.lists pair
  · intro left right pair
    have same := alike.mem_iff_of_forall₂ both pair
    by_cases member : left ∈ ids
    · exact hosts_of_orphans (by rw [Document.parent?_free, if_pos member])
        (by rw [Document.parent?_free, if_pos (same.mp member)])
    · exact alike.hosts_of_same_parents id pair (by rw [Document.parent?_free, if_neg member])
        (by rw [Document.parent?_free, if_neg fun found => member (same.mpr found)])

theorem emptied (alike : Alike uid pairs first second) {left right : NodeId} (pair : pairs left right) :
    Alike uid pairs { first with document := first.document.emptied left }
      { second with document := second.document.emptied right } := by
  have texts : List.Forall₂ pairs ((first.document.children left).filter first.document.isText)
      ((second.document.children right).filter second.document.isText) := by
    apply List.rel_filter _ (alike.lists pair)
    intro id other same
    exact Bool.eq_iff_iff.mp (alike.isText same)
  exact (alike.cleared pair).freed texts (alike.soundFirst.document.forest.leaves_of_cleared left)
    (alike.soundSecond.document.forest.leaves_of_cleared right)

/-- A new node put below paired ones. -/
theorem grafted (alike : Alike uid pairs first second) {host otherHost : NodeId}
    (hostPair : pairs host otherHost) (possible : first.document.MayHost host) {kind : NodeKind}
    (formed : ∀ data, kind = .element data → data.WellFormed) :
    Alike uid (withNext pairs first second)
      { first with document := first.document.grafted host kind }
      { second with document := second.document.grafted otherHost kind } := by
  have fits := Edit.appendProblem_pushed alike.soundFirst.document.forest possible kind
  exact (alike.pushed formed).moved (Or.inl hostPair) (Or.inr ⟨rfl, rfl⟩) fits

/-- The children of paired elements replaced by one text. -/
theorem filled (alike : Alike uid pairs first second) {left right : NodeId} (pair : pairs left right)
    (possible : first.document.MayHost left) (content : Text) :
    ∃ wider, pairs ≤ wider ∧
      Alike uid wider { first with document := first.document.filled left content }
        { second with document := second.document.filled right content } := by
  rw [Document.filled, Document.filled]
  by_cases empty : content.isEmpty
  · rw [if_pos empty, if_pos empty]
    exact ⟨pairs, le_refl _, alike.emptied pair⟩
  · rw [if_neg empty, if_neg empty]
    have possibleStill := Document.mayHost_emptied alike.soundFirst.document.forest possible
    exact ⟨_, le_withNext, (alike.emptied pair).grafted pair possibleStill (by simp)⟩

end Edits

/-! ## Changes beside the document -/

theorem withBuffers (alike : Alike uid pairs first second) {buffers : Buffers}
    (free : ∀ rule ∈ buffers.styles, '<' ∉ rule.text) :
    Alike uid pairs { first with buffers } { second with buffers } :=
  { alike with
    soundFirst := { alike.soundFirst with styles := free }
    soundSecond := { alike.soundSecond with styles := free }
    buffers := rfl }

theorem withIds (alike : Alike uid pairs first second) (ids : Identifier.Allocator) :
    Alike uid pairs { first with ids } { second with ids } :=
  { alike with
    soundFirst := { alike.soundFirst with }
    soundSecond := { alike.soundSecond with }
    ids := rfl }

theorem withJournals (alike : Alike uid pairs first second) (journal otherJournal : List Event) :
    Alike uid pairs { first with journal } { second with journal := otherJournal } :=
  { alike with
    soundFirst := { alike.soundFirst with }
    soundSecond := { alike.soundSecond with } }

theorem withHooked (alike : Alike uid pairs first second) {left right : NodeId}
    (pair : pairs left right) :
    Alike uid pairs
      (if first.hooked.contains left then first else { first with hooked := left :: first.hooked })
      (if second.hooked.contains right then second
        else { second with hooked := right :: second.hooked }) := by
  have same := alike.hooked pair
  by_cases member : left ∈ first.hooked
  · rw [if_pos (List.contains_iff_mem.mpr member),
      if_pos (List.contains_iff_mem.mpr (same.mp member))]
    exact alike
  · rw [if_neg fun found => member (List.contains_iff_mem.mp found),
      if_neg fun found => member (same.mpr (List.contains_iff_mem.mp found))]
    exact { alike with
      soundFirst := { alike.soundFirst with
        hooked := List.forall_mem_cons.mpr ⟨(alike.users pair).1, alike.soundFirst.hooked⟩ }
      soundSecond := { alike.soundSecond with
        hooked := List.forall_mem_cons.mpr ⟨(alike.users pair).2, alike.soundSecond.hooked⟩ }
      hooked := by
        intro other otherRight otherPair
        rw [List.mem_cons, List.mem_cons, alike.unique otherPair pair, alike.hooked otherPair] }

end Alike

/-- Each user node of an engine paired with itself. -/
def Engine.selfPairs (engine : Engine) (left right : NodeId) : Prop :=
  left = right ∧ engine.IsUserNode left

/-- An engine is like itself. -/
theorem Engine.Sound.alike_self {engine : Engine} (sound : engine.Sound) :
    Alike engine.uid engine.selfPairs engine engine where
  soundFirst := sound
  soundSecond := sound
  uidFirst := rfl
  uidSecond := rfl
  config := rfl
  ids := rfl
  buffers := rfl
  lastRendered := rfl
  phase := rfl
  users := by
    rintro left right ⟨rfl, user⟩
    exact ⟨user, user⟩
  unique := by
    rintro left right other otherRight ⟨rfl, _⟩ ⟨rfl, _⟩
    exact Iff.rfl
  kinds := by
    rintro left right ⟨rfl, _⟩
    rfl
  lists := by
    rintro left right ⟨rfl, user⟩
    rw [List.forall₂_same]
    intro child listed
    exact ⟨rfl, sound.isUserNode_child user listed⟩
  hosts := by
    rintro left right ⟨rfl, user⟩
    cases found : engine.host? left with
    | none => exact .none
    | some host => exact .some ⟨rfl, sound.isUserNode_host user found⟩
  hooked := by
    rintro left right ⟨rfl, _⟩
    exact Iff.rfl

end PageCompiler
