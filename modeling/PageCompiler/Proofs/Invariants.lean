import PageCompiler.Proofs.Steps

/-!
# Invariants of steps

What a composed step comes to, whether it succeeds or fails, follows from what its parts come to. A step
keeps an invariant when the invariant holds afterwards in both cases; what is known of its result is
handed on to the next step.
-/

namespace PageCompiler.Steps

variable {ε σ α β : Type}

/-- Whether a step leads from every state where a condition holds to a state that another condition
describes: one if it succeeds, depending on the result, and one if it fails. -/
def Meets (before : σ → Prop) (step : EStateM ε σ α) (after : α → σ → Prop) (failed : σ → Prop) : Prop :=
  ∀ state, before state →
    match step state with
    | .ok value last => after value last
    | .error _ last => failed last

/-- Whether a step keeps an invariant, and gives only results with a property. -/
def Preserves (invariant : σ → Prop) (step : EStateM ε σ α) (holds : α → Prop) : Prop :=
  Meets invariant step (fun value last => invariant last ∧ holds value) invariant

namespace Meets

variable {before failed : σ → Prop} {after : α → σ → Prop} {step : EStateM ε σ α}

theorem ok {state last : σ} {value : α} (meets : Meets before step after failed) (start : before state)
    (run : step state = .ok value last) : after value last := by
  have ends := meets state start
  rwa [run] at ends

theorem error {state last : σ} {cause : ε} (meets : Meets before step after failed)
    (start : before state) (run : step state = .error cause last) : failed last := by
  have ends := meets state start
  rwa [run] at ends

theorem bind {next : α → EStateM ε σ β} {final : β → σ → Prop} (first : Meets before step after failed)
    (second : ∀ value, Meets (after value) (next value) final failed) :
    Meets before (step >>= next) final failed := by
  intro state start
  have ends := first state start
  rw [bind_run]
  cases run : step state with
  | ok value last =>
    rw [run] at ends
    exact second value last ends
  | error cause last =>
    rw [run] at ends
    exact ends

theorem weaken {earlier failedLater : σ → Prop} {later : α → σ → Prop}
    (meets : Meets before step after failed) (start : ∀ state, earlier state → before state)
    (finish : ∀ value last, after value last → later value last)
    (fail : ∀ last, failed last → failedLater last) : Meets earlier step later failedLater := by
  intro state condition
  have ends := meets state (start state condition)
  cases run : step state with
  | ok value last =>
    rw [run] at ends
    exact finish value last ends
  | error cause last =>
    rw [run] at ends
    exact fail last ends

/-- What can be said of a step twice can be said at once. -/
theorem both {otherBefore otherFailed : σ → Prop} {otherAfter : α → σ → Prop}
    (meets : Meets before step after failed) (other : Meets otherBefore step otherAfter otherFailed) :
    Meets (fun state => before state ∧ otherBefore state) step
      (fun value last => after value last ∧ otherAfter value last)
      (fun last => failed last ∧ otherFailed last) := by
  rintro state ⟨start, otherStart⟩
  have ends := meets state start
  have otherEnds := other state otherStart
  cases run : step state with
  | ok value last =>
    rw [run] at ends otherEnds
    exact ⟨ends, otherEnds⟩
  | error cause last =>
    rw [run] at ends otherEnds
    exact ⟨ends, otherEnds⟩

end Meets

namespace Preserves

variable {invariant : σ → Prop} {holds : α → Prop} {step : EStateM ε σ α}

theorem result {value : α} (known : holds value) :
    Preserves invariant (pure value : EStateM ε σ α) holds :=
  fun _ start => ⟨start, known⟩

theorem failure (cause : ε) : Preserves invariant (throw cause : EStateM ε σ α) holds :=
  fun _ start => start

theorem state : Preserves invariant (get : EStateM ε σ σ) invariant :=
  fun _ start => ⟨start, start⟩

theorem update {change : σ → σ} (kept : ∀ state, invariant state → invariant (change state)) :
    Preserves invariant (modify change : EStateM ε σ PUnit) fun _ => True :=
  fun state start => ⟨kept state start, trivial⟩

theorem bind {next : α → EStateM ε σ β} {holdsNext : β → Prop} (kept : Preserves invariant step holds)
    (keptNext : ∀ value, holds value → Preserves invariant (next value) holdsNext) :
    Preserves invariant (step >>= next) holdsNext :=
  Meets.bind kept fun value state ⟨start, known⟩ => keptNext value known state start

theorem andThen {next : α → EStateM ε σ β} {holdsNext : β → Prop} (kept : Preserves invariant step holds)
    (keptNext : ∀ value, Preserves invariant (next value) holdsNext) :
    Preserves invariant (step >>= next) holdsNext :=
  kept.bind fun value _ => keptNext value

/-- After a step that keeps an invariant. -/
theorem meets_bind {next : α → EStateM ε σ β} {after : β → σ → Prop}
    (kept : Preserves invariant step holds)
    (meets : ∀ value, holds value → Meets invariant (next value) after invariant) :
    Meets invariant (step >>= next) after invariant :=
  Meets.bind kept fun value state ⟨start, known⟩ => meets value known state start

theorem weaken {later : α → Prop} (kept : Preserves invariant step holds)
    (finish : ∀ value, holds value → later value) : Preserves invariant step later :=
  Meets.weaken kept (fun _ start => start) (fun value _ ⟨start, known⟩ => ⟨start, finish value known⟩)
    fun _ start => start

/-- What the invariant says of a state may be used to show that it is kept. -/
theorem given (kept : ∀ state, invariant state → Preserves invariant step holds) :
    Preserves invariant step holds :=
  fun state start => kept state start state start

theorem forget (kept : Preserves invariant step holds) : Preserves invariant step fun _ => True :=
  kept.weaken fun _ _ => trivial

theorem branch {condition : Prop} [Decidable condition] {other : EStateM ε σ α}
    (kept : condition → Preserves invariant step holds)
    (keptOther : ¬ condition → Preserves invariant other holds) :
    Preserves invariant (if condition then step else other) holds := by
  split
  · next holds => exact kept holds
  · next fails => exact keptOther fails

/-- A step that is only taken under a condition, before another one. -/
theorem guarded {condition : Prop} [Decidable condition] {next : EStateM ε σ β} {holdsNext : β → Prop}
    (kept : Preserves invariant step fun _ => True) (keptNext : Preserves invariant next holdsNext) :
    Preserves invariant (if condition then step >>= fun _ => next else next) holdsNext :=
  branch (fun _ => kept.andThen fun _ => keptNext) fun _ => keptNext

/-- Steps for the values of a list, one after another. -/
theorem loop {each : α → EStateM ε σ PUnit} {values : List α}
    (kept : ∀ value ∈ values, Preserves invariant (each value) fun _ => True) :
    Preserves invariant (values.forM each) fun _ => True := by
  induction values with
  | nil => exact result trivial
  | cons first rest ih =>
    exact (kept first (by simp)).andThen fun _ => ih fun value member => kept value (by simp [member])

/-- A step for a value that may be missing. -/
theorem optional {each : α → EStateM ε σ PUnit} {value : Option α}
    (kept : ∀ found ∈ value, Preserves invariant (each found) fun _ => True) :
    Preserves invariant (value.forM each) fun _ => True := by
  cases value with
  | none => exact result trivial
  | some found => exact kept found rfl

end Preserves

end PageCompiler.Steps
