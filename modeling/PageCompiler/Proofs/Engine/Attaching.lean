import PageCompiler.Proofs.Engine.Actions

/-!
# Making and attaching nodes in alike engines

New nodes of two engines are paired with each other. A new node that cannot be put where it should go
is removed again, in both engines or in none.
-/

namespace PageCompiler

open Markup Steps

/-! ## Runs of attempts -/

namespace Action

variable {α : Type} {change : Edit α} {engine : Engine} {changed : Document}

theorem attempt_of_ok {value : α} (run : change engine.document = .ok value changed) :
    attempt change engine = .ok (.ok value) { engine with document := changed } := by
  rw [attempt, run]

theorem attempt_of_error {cause : DomError} (run : change engine.document = .error cause changed) :
    attempt change engine = .ok (.error cause) { engine with document := changed } := by
  rw [attempt, run]

end Action

theorem Action.createText_run (content : Text) (engine : Engine) :
    Action.createText content engine = .ok engine.document.slots.size
      { engine with document := engine.document.push { kind := .text content } } := by
  rw [Action.createText, Action.edit, Engine.edit, Edit.createText_run]

theorem Action.createElement_run {tag : Text} (valid : isTagName tag = true) (engine : Engine) :
    Action.createElement tag engine =
      .ok ⟨engine.uid, engine.document.slots.size, Text.lowered tag⟩
        { engine with
          document := engine.document.push { kind := .element { tag := Text.lowered tag } } } := by
  have run : Action.edit (Edit.createElement tag) engine = .ok engine.document.slots.size
      { engine with
        document := engine.document.push { kind := .element { tag := Text.lowered tag } } } := by
    rw [Action.edit, Engine.edit, Edit.createElement_run valid]
  have made : (engine.document.push { kind := .element { tag := Text.lowered tag } }).element?
      engine.document.slots.size = some { tag := Text.lowered tag } := by
    rw [Document.element?_eq_some_iff_kind?, Document.kind?_push, if_pos rfl]
  rw [Action.createElement, bind_of_ok run, bind_of_ok (get_run _), Document.tag?, made]
  rfl

theorem Action.createElement_run_invalid {tag : Text} (invalid : ¬ isTagName tag = true)
    (engine : Engine) :
    Action.createElement tag engine = .error (.elementCreation (.invalidTagName tag)) engine := by
  have run : Action.edit (Edit.createElement tag) engine =
      .error (.elementCreation (.invalidTagName tag)) engine := by
    rw [Action.edit, Engine.edit, Edit.createElement_run_invalid invalid]
  rw [Action.createElement, bind_of_error run]

namespace Alike

variable {uid : Nat} {pairs : NodeId → NodeId → Prop} {first second : Engine}

theorem appendProblem_cases (alike : Alike uid pairs first second)
    {host otherHost child otherChild : NodeId} (hostPair : pairs host otherHost)
    (pair : pairs child otherChild) :
    (Edit.appendProblem first.document host child = none ∧
        Edit.appendProblem second.document otherHost otherChild = none) ∨
      ∃ cause otherCause, Edit.appendProblem first.document host child = some cause ∧
        Edit.appendProblem second.document otherHost otherChild = some otherCause := by
  have same := alike.appendProblem_eq_none_iff hostPair pair
  cases problem : Edit.appendProblem first.document host child with
  | none => exact Or.inl ⟨rfl, same.mp problem⟩
  | some cause =>
    cases otherProblem : Edit.appendProblem second.document otherHost otherChild with
    | none =>
      rw [same.mpr otherProblem] at problem
      cases problem
    | some otherCause => exact Or.inr ⟨cause, otherCause, rfl, rfl⟩

/-- New nodes that are removed again right away. -/
theorem discarded (alike : Alike uid pairs first second) {kind : NodeKind}
    (formed : ∀ data, kind = .element data → data.WellFormed) :
    Alike uid (withNext pairs first second)
      { first with document := (first.document.push { kind }).free [first.document.slots.size] }
      { second with document := (second.document.push { kind }).free [second.document.slots.size] } := by
  apply (alike.pushed formed).freed (.cons (Or.inr ⟨rfl, rfl⟩) .nil)
  · intro id member
    rw [List.mem_singleton.mp member]
    exact ⟨Document.parent?_pushed kind, Document.children_pushed kind⟩
  · intro id member
    rw [List.mem_singleton.mp member]
    exact ⟨Document.parent?_pushed kind, Document.children_pushed kind⟩

/-- New nodes are put below paired ones, or cannot be and are removed again. -/
theorem placed (alike : Alike uid pairs first second) {host otherHost : NodeId}
    (hostPair : pairs host otherHost) {kind : NodeKind}
    (formed : ∀ data, kind = .element data → data.WellFormed) {made otherMade : Engine}
    (pushed : made = { first with document := first.document.push { kind } })
    (otherPushed : otherMade = { second with document := second.document.push { kind } }) :
    ∃ after otherAfter, Alike uid (withNext pairs first second) after otherAfter ∧
      ((Action.attempt (Edit.appendChild host first.document.slots.size) made =
            .ok (.ok ()) after ∧
          Action.attempt (Edit.appendChild otherHost second.document.slots.size) otherMade =
            .ok (.ok ()) otherAfter) ∨
        ∃ cause otherCause,
          Action.attempt (Edit.appendChild host first.document.slots.size) made =
            .ok (.error cause) made ∧
          Action.attempt (Edit.appendChild otherHost second.document.slots.size) otherMade =
            .ok (.error otherCause) otherMade ∧
          Action.attempt (Edit.remove first.document.slots.size) made = .ok (.ok ()) after ∧
          Action.attempt (Edit.remove second.document.slots.size) otherMade =
            .ok (.ok ()) otherAfter) := by
  subst pushed
  subst otherPushed
  have alikePushed := alike.pushed formed
  have hostPairStill : withNext pairs first second host otherHost := Or.inl hostPair
  have pair : withNext pairs first second first.document.slots.size second.document.slots.size :=
    Or.inr ⟨rfl, rfl⟩
  rcases alikePushed.appendProblem_cases hostPairStill pair with
    ⟨possible, otherPossible⟩ | ⟨cause, otherCause, problem, otherProblem⟩
  · refine ⟨_, _, alikePushed.moved hostPairStill pair possible, Or.inl ⟨?_, ?_⟩⟩
    · exact Action.attempt_of_ok
        (Edit.appendChild_run alikePushed.soundFirst.document.forest possible)
    · exact Action.attempt_of_ok
        (Edit.appendChild_run alikePushed.soundSecond.document.forest otherPossible)
  · refine ⟨_, _, alike.discarded formed, Or.inr ⟨cause, otherCause, ?_, ?_, ?_, ?_⟩⟩
    · exact Action.attempt_of_error (Edit.appendChild_run_problem problem)
    · exact Action.attempt_of_error (Edit.appendChild_run_problem otherProblem)
    · exact Action.attempt_of_ok (Edit.removePushed_run alike.soundFirst.document.forest kind)
    · exact Action.attempt_of_ok (Edit.removePushed_run alike.soundSecond.document.forest kind)

end Alike

namespace Mirrors

variable {uid : Nat} {pairs : NodeId → NodeId → Prop}

/-! ## New nodes -/

theorem formed_new {tag : Text} (valid : isTagName tag = true) :
    ∀ data, NodeKind.element { tag := Text.lowered tag } = .element data → data.WellFormed := by
  intro data same
  cases same
  exact ElementData.wellFormed_new valid

theorem createElement (tag : Text) :
    Mirrors uid pairs (Element.Agree uid) (Action.createElement tag) (Action.createElement tag) := by
  intro wider widens first second alike
  by_cases valid : isTagName tag = true
  · rw [Action.createElement_run valid, Action.createElement_run valid]
    refine ⟨_, Alike.le_withNext, alike.pushed (formed_new valid), ?_, rfl,
      fun _ => Or.inr ⟨rfl, rfl⟩⟩
    exact alike.uidFirst.trans alike.uidSecond.symm
  · rw [Action.createElement_run_invalid valid, Action.createElement_run_invalid valid]
    exact ⟨wider, le_refl _, alike⟩

theorem createText (content : Text) :
    Mirrors uid pairs Paired (Action.createText content) (Action.createText content) := by
  intro wider widens first second alike
  rw [Action.createText_run, Action.createText_run]
  exact ⟨_, Alike.le_withNext, alike.pushed (by simp), Or.inr ⟨rfl, rfl⟩⟩

/-! ## Attaching -/

theorem attemptAppend {host otherHost child otherChild : NodeId} (hostPair : pairs host otherHost)
    (pair : pairs child otherChild) :
    Mirrors uid pairs SameOutcome (Action.attempt (Edit.appendChild host child))
      (Action.attempt (Edit.appendChild otherHost otherChild)) := by
  intro wider widens first second alike
  have hostPair := widens _ _ hostPair
  have pair := widens _ _ pair
  rcases alike.appendProblem_cases hostPair pair with
    ⟨possible, otherPossible⟩ | ⟨cause, otherCause, problem, otherProblem⟩
  · rw [Action.attempt_of_ok (Edit.appendChild_run alike.soundFirst.document.forest possible),
      Action.attempt_of_ok (Edit.appendChild_run alike.soundSecond.document.forest otherPossible)]
    exact ⟨wider, le_refl _, alike.moved hostPair pair possible, Or.inl ⟨rfl, rfl⟩⟩
  · rw [Action.attempt_of_error (Edit.appendChild_run_problem problem),
      Action.attempt_of_error (Edit.appendChild_run_problem otherProblem)]
    exact ⟨wider, le_refl _, alike, Or.inr ⟨cause, otherCause, rfl, rfl⟩⟩

section Hosts

variable {host otherHost : Element}

theorem attachNode (hostPair : pairs host.node otherHost.node) {child otherChild : NodeId}
    (pair : pairs child otherChild) :
    Mirrors uid pairs SamePresence (Action.attach host (.node child))
      (Action.attach otherHost (.node otherChild)) := by
  apply (attemptAppend hostPair pair).bind
  rintro wider widens outcome otherOutcome (⟨rfl, rfl⟩ | ⟨cause, otherCause, rfl, rfl⟩)
  · exact result fun _ _ => Or.inl ⟨rfl, rfl⟩
  · exact result fun _ _ => Or.inr ⟨_, _, rfl, rfl⟩

theorem attachElement (hostPair : pairs host.node otherHost.node) {element other : Element}
    (agree : element.Agree uid pairs other) :
    Mirrors uid pairs SamePresence (Action.attach host (.element element))
      (Action.attach otherHost (.element other)) := by
  apply state.bind
  intro wider widens first second alike
  have sameOwner : first.owns element = second.owns other := by
    rw [Engine.owns, Engine.owns, agree.1, alike.uidFirst, alike.uidSecond]
  rw [sameOwner]
  by_cases own : second.owns other = true
  · rw [if_pos own, if_pos own]
    have pair : wider element.node other.node := by
      apply widens _ _ (agree.2.2 _)
      rw [← sameOwner] at own
      exact (of_decide_eq_true own).trans alike.uidFirst
    exact attachNode (widens _ _ hostPair) pair
  · rw [if_neg own, if_neg own]
    exact result fun _ _ => Or.inr ⟨_, _, rfl, rfl⟩

theorem attachText (hostPair : pairs host.node otherHost.node) (content : Text) :
    Mirrors uid pairs SamePresence (Action.attach host (.text content))
      (Action.attach otherHost (.text content)) := by
  intro wider widens first second alike
  have hostPair := widens _ _ hostPair
  have text : ∀ data, NodeKind.text content = .element data → data.WellFormed := by simp
  rw [Action.attach, Action.attach, bind_of_ok (Action.createText_run content first),
    bind_of_ok (Action.createText_run content second)]
  obtain ⟨after, otherAfter, alikeAfter, ⟨run, otherRun⟩ |
    ⟨cause, otherCause, run, otherRun, removed, otherRemoved⟩⟩ := alike.placed hostPair text rfl rfl
  · rw [bind_of_ok run, bind_of_ok otherRun]
    exact ⟨_, Alike.le_withNext, alikeAfter, Or.inl ⟨rfl, rfl⟩⟩
  · rw [bind_of_ok run, bind_of_ok otherRun]
    dsimp only
    rw [bind_of_ok removed, bind_of_ok otherRemoved]
    exact ⟨_, Alike.le_withNext, alikeAfter, Or.inr ⟨_, _, rfl, rfl⟩⟩

theorem appendItem (hostPair : pairs host.node otherHost.node) {item other : Item}
    (agree : Item.Agree uid pairs item other) :
    Mirrors uid pairs Same (Action.appendItem host item) (Action.appendItem otherHost other) := by
  have attached : Mirrors uid pairs SamePresence (Action.attach host item)
      (Action.attach otherHost other) := by
    cases agree with
    | element agree => exact attachElement hostPair agree
    | node pair => exact attachNode hostPair pair
    | text content => exact attachText hostPair content
  apply attached.bind
  rintro wider widens problem otherProblem (⟨rfl, rfl⟩ | ⟨cause, otherCause, rfl, rfl⟩)
  · exact done
  · apply state.bind
    intro widest further first second alike
    rw [alike.config]
    cases second.config.append with
    | strict => exact failure _ _
    | lenient => exact report _ _

theorem appendChildren (hostPair : pairs host.node otherHost.node) {children others : List Child}
    (both : List.Forall₂ (Item.Agree uid pairs) (Child.itemsOfAll children)
      (Child.itemsOfAll others)) :
    Mirrors uid pairs Same (Action.appendChildren host children)
      (Action.appendChildren otherHost others) := by
  apply loop (fun _ _ widens _ _ agree => agree.widen widens) both
  intro wider widens item other agree
  exact appendItem (widens _ _ hostPair) agree

theorem createChild (hostPair : pairs host.node otherHost.node) (tag : Text) :
    Mirrors uid pairs (Element.Agree uid) (Action.createChild host tag)
      (Action.createChild otherHost tag) := by
  intro wider widens first second alike
  have hostPair := widens _ _ hostPair
  by_cases valid : isTagName tag = true
  · rw [Action.createChild, Action.createChild, bind_of_ok (Action.createElement_run valid first),
      bind_of_ok (Action.createElement_run valid second)]
    obtain ⟨after, otherAfter, alikeAfter, ⟨run, otherRun⟩ |
      ⟨cause, otherCause, run, otherRun, removed, otherRemoved⟩⟩ :=
      alike.placed hostPair (formed_new valid) rfl rfl
    · rw [bind_of_ok run, bind_of_ok otherRun]
      refine ⟨_, Alike.le_withNext, alikeAfter, ?_, rfl, fun _ => Or.inr ⟨rfl, rfl⟩⟩
      exact alike.uidFirst.trans alike.uidSecond.symm
    · rw [bind_of_ok run, bind_of_ok otherRun]
      dsimp only
      rw [bind_of_ok removed, bind_of_ok otherRemoved]
      exact ⟨_, Alike.le_withNext, alikeAfter⟩
  · rw [Action.createChild, Action.createChild,
      bind_of_error (Action.createElement_run_invalid valid first),
      bind_of_error (Action.createElement_run_invalid valid second)]
    exact ⟨wider, le_refl _, alike⟩

end Hosts

end Mirrors

end PageCompiler
