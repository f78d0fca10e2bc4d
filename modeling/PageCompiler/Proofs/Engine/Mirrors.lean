import PageCompiler.Engine.Element
import PageCompiler.Proofs.Engine.Alike
import PageCompiler.Proofs.Stylesheet

/-!
# Actions that mirror each other

Two actions mirror each other when, from engines that are alike, they both succeed or both fail and
leave engines that are alike. New nodes may be paired on the way, so what is known of pairs has to
hold of more pairs too. Every action on elements mirrors itself, applied to paired elements.
-/

namespace PageCompiler

open Markup Steps

/-- What two runs come to that cannot be told apart: both succeed or both fail, and the engines they
leave are alike, perhaps with more pairs. What went wrong is not compared. -/
def EndAlike {α β : Type} (uid : Nat) (pairs : NodeId → NodeId → Prop)
    (agree : (NodeId → NodeId → Prop) → α → β → Prop) :
    EStateM.Result Error Engine α → EStateM.Result Error Engine β → Prop
  | .ok value first, .ok other second =>
    ∃ wider, pairs ≤ wider ∧ Alike uid wider first second ∧ agree wider value other
  | .error _ first, .error _ second => ∃ wider, pairs ≤ wider ∧ Alike uid wider first second
  | _, _ => False

/-- Actions whose runs cannot be told apart, from any engines that are alike with these pairs or with
more. -/
def Mirrors {α β : Type} (uid : Nat) (pairs : NodeId → NodeId → Prop)
    (agree : (NodeId → NodeId → Prop) → α → β → Prop) (action : Action α) (other : Action β) : Prop :=
  ∀ wider, pairs ≤ wider → ∀ first second, Alike uid wider first second →
    EndAlike uid wider agree (action first) (other second)

/-- Results that are the same. -/
def Same {α : Type} (_ : NodeId → NodeId → Prop) (value other : α) : Prop :=
  value = other

/-- Attempts that both succeed or both fail. -/
def SameOutcome (_ : NodeId → NodeId → Prop) (result other : Except DomError Unit) : Prop :=
  (result = .ok () ∧ other = .ok ()) ∨
    ∃ cause otherCause, result = .error cause ∧ other = .error otherCause

/-- Elements with one owner and one tag; those of the engine are paired. -/
def Element.Agree (uid : Nat) (pairs : NodeId → NodeId → Prop) (element other : Element) : Prop :=
  element.owner = other.owner ∧ element.tag = other.tag ∧
    (element.owner = uid → pairs element.node other.node)

theorem Element.Agree.widen {uid : Nat} {pairs wider : NodeId → NodeId → Prop} {element other : Element}
    (agree : element.Agree uid pairs other) (widens : pairs ≤ wider) :
    element.Agree uid wider other :=
  ⟨agree.1, agree.2.1, fun own => widens _ _ (agree.2.2 own)⟩

namespace EndAlike

variable {α β : Type} {uid : Nat} {pairs wider : NodeId → NodeId → Prop}
  {agree : (NodeId → NodeId → Prop) → α → β → Prop}

theorem widen {result : EStateM.Result Error Engine α} {other : EStateM.Result Error Engine β}
    (ends : EndAlike uid wider agree result other) (widens : pairs ≤ wider) :
    EndAlike uid pairs agree result other := by
  cases result <;> cases other
  · obtain ⟨widest, further, alike, agrees⟩ := ends
    exact ⟨widest, le_trans widens further, alike, agrees⟩
  · exact ends
  · exact ends
  · obtain ⟨widest, further, alike⟩ := ends
    exact ⟨widest, le_trans widens further, alike⟩

section Edits

variable {first second : Engine} {change : Edit α} {other : Edit β} {changed otherChanged : Document}

theorem edit_of_ok {value : α} {otherValue : β} (run : change first.document = .ok value changed)
    (otherRun : other second.document = .ok otherValue otherChanged) (widens : pairs ≤ wider)
    (alike : Alike uid wider { first with document := changed }
      { second with document := otherChanged })
    (agrees : agree wider value otherValue) :
    EndAlike uid pairs agree (Action.edit change first) (Action.edit other second) := by
  rw [Action.edit, Action.edit, Engine.edit, Engine.edit, run, otherRun]
  exact ⟨wider, widens, alike, agrees⟩

theorem edit_of_error {cause otherCause : DomError}
    (run : change first.document = .error cause changed)
    (otherRun : other second.document = .error otherCause otherChanged) (widens : pairs ≤ wider)
    (alike : Alike uid wider { first with document := changed }
      { second with document := otherChanged }) :
    EndAlike uid pairs agree (Action.edit change first) (Action.edit other second) := by
  rw [Action.edit, Action.edit, Engine.edit, Engine.edit, run, otherRun]
  exact ⟨wider, widens, alike⟩

end Edits

end EndAlike

namespace Mirrors

variable {α β γ δ : Type} {uid : Nat} {pairs : NodeId → NodeId → Prop}
  {agree : (NodeId → NodeId → Prop) → α → β → Prop}

theorem result {value : α} {other : β} (agrees : ∀ wider, pairs ≤ wider → agree wider value other) :
    Mirrors uid pairs agree (pure value) (pure other) := by
  intro wider widens first second alike
  exact ⟨wider, le_refl _, alike, agrees wider widens⟩

theorem done : Mirrors uid pairs Same (pure () : Action Unit) (pure ()) :=
  result fun _ _ => rfl

theorem failure (cause otherCause : Error) :
    Mirrors uid pairs agree (throw cause) (throw otherCause) := by
  intro wider _ first second alike
  exact ⟨wider, le_refl _, alike⟩

/-- Actions one after another: the second ones get results that agree, and perhaps more pairs. -/
theorem bind {agreeNext : (NodeId → NodeId → Prop) → γ → δ → Prop} {action : Action α}
    {other : Action β} {next : α → Action γ} {otherNext : β → Action δ}
    (mirrors : Mirrors uid pairs agree action other)
    (mirrorsNext : ∀ wider, pairs ≤ wider → ∀ value otherValue, agree wider value otherValue →
      Mirrors uid wider agreeNext (next value) (otherNext otherValue)) :
    Mirrors uid pairs agreeNext (action >>= next) (other >>= otherNext) := by
  intro wider widens first second alike
  have ends := mirrors wider widens first second alike
  rw [bind_run, bind_run]
  generalize action first = result at ends
  generalize other second = otherResult at ends
  cases result with
  | ok value after =>
    cases otherResult with
    | ok otherValue otherAfter =>
      obtain ⟨widest, further, alikeAfter, agrees⟩ := ends
      have all := mirrorsNext widest (le_trans widens further) value otherValue agrees
      exact (all widest (le_refl _) after otherAfter alikeAfter).widen further
    | error _ _ => exact ends.elim
  | error _ after =>
    cases otherResult with
    | ok _ _ => exact ends.elim
    | error _ otherAfter => exact ends

theorem andThen {agreeNext : (NodeId → NodeId → Prop) → γ → δ → Prop} {action : Action α}
    {other : Action β} {next : Action γ} {otherNext : Action δ}
    (mirrors : Mirrors uid pairs agree action other)
    (mirrorsNext : ∀ wider, pairs ≤ wider → Mirrors uid wider agreeNext next otherNext) :
    Mirrors uid pairs agreeNext (action >>= fun _ => next) (other >>= fun _ => otherNext) :=
  mirrors.bind fun wider widens _ _ _ => mirrorsNext wider widens

theorem state :
    Mirrors uid pairs (fun wider first second => Alike uid wider first second)
      (get : Action Engine) get := by
  intro wider _ first second alike
  exact ⟨wider, le_refl _, alike, alike⟩

theorem update {change otherChange : Engine → Engine}
    (alikeAfter : ∀ wider, pairs ≤ wider → ∀ first second, Alike uid wider first second →
      Alike uid wider (change first) (otherChange second)) :
    Mirrors uid pairs Same (modify change : Action PUnit) (modify otherChange) := by
  intro wider widens first second alike
  exact ⟨wider, le_refl _, alikeAfter wider widens first second alike, rfl⟩

theorem loop {related : (NodeId → NodeId → Prop) → α → β → Prop}
    (stays : ∀ pairs wider, pairs ≤ wider → ∀ value other, related pairs value other →
      related wider value other)
    {step : α → Action PUnit} {otherStep : β → Action PUnit} {values : List α} {others : List β}
    (both : List.Forall₂ (related pairs) values others)
    (mirrors : ∀ wider, pairs ≤ wider → ∀ value other, related wider value other →
      Mirrors uid wider Same (step value) (otherStep other)) :
    Mirrors uid pairs Same (values.forM step) (others.forM otherStep) := by
  induction values generalizing others pairs with
  | nil =>
    cases both
    exact done
  | cons value rest ih =>
    cases both with
    | @cons _ other _ others first later =>
      show Mirrors uid pairs Same (step value >>= fun _ => rest.forM step)
        (otherStep other >>= fun _ => others.forM otherStep)
      apply (mirrors pairs (le_refl _) value other first).andThen
      intro wider widens
      apply ih
      · exact later.imp (stays pairs wider widens)
      · intro widest further
        exact mirrors widest (le_trans widens further)

/-- A loop over one list. -/
theorem loop_same {step otherStep : α → Action PUnit} (values : List α)
    (mirrors : ∀ wider, pairs ≤ wider → ∀ value,
      Mirrors uid wider Same (step value) (otherStep value)) :
    Mirrors uid pairs Same (values.forM step) (values.forM otherStep) := by
  have both : List.Forall₂ (Same pairs) values values := List.forall₂_same.mpr fun _ _ => rfl
  apply loop (fun _ _ _ _ _ same => same) both
  rintro wider widens value other rfl
  exact mirrors wider widens value

theorem report (event otherEvent : Event) :
    Mirrors uid pairs Same (Action.report event) (Action.report otherEvent) :=
  update fun _ _ _ _ alike => alike.withJournals _ _

theorem allocate (ids : Identifier.Allocator) :
    Mirrors uid pairs Same (modify fun engine => { engine with ids } : Action PUnit)
      (modify fun engine => { engine with ids }) :=
  update fun _ _ _ _ alike => alike.withIds ids

theorem collect {buffers : Buffers} (free : ∀ rule ∈ buffers.styles, '<' ∉ rule.text) :
    Mirrors uid pairs Same (modify fun engine => { engine with buffers } : Action PUnit)
      (modify fun engine => { engine with buffers }) :=
  update fun _ _ _ _ alike => alike.withBuffers free

end Mirrors

/-! ## Edits as actions -/

theorem Engine.edit_bind {ε α β : Type} (wrap : DomError → ε) (change : Edit α) (next : α → Edit β) :
    Engine.edit wrap (change >>= next) =
      Engine.edit wrap change >>= fun value => Engine.edit wrap (next value) := by
  funext engine
  rw [bind_run, Engine.edit, Engine.edit, bind_run]
  cases change engine.document <;> rfl

theorem Engine.edit_forM {ε α : Type} (wrap : DomError → ε) (step : α → Edit PUnit) (values : List α) :
    Engine.edit wrap (values.forM step) = values.forM fun value => Engine.edit wrap (step value) := by
  induction values with
  | nil => rfl
  | cons value rest ih =>
    show Engine.edit wrap (step value >>= fun _ => rest.forM step) = _
    rw [Engine.edit_bind, ih]
    rfl

end PageCompiler
