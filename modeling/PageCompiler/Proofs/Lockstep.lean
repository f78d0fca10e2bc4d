import PageCompiler.Proofs.Invariants

/-!
# Steps in lockstep

Two steps match when, from related states, both succeed or both fail for one reason. They agree when they
also give one result and leave related states; what is known of the result is handed on to the next steps.
A step that keeps an invariant agrees with itself.
-/

namespace PageCompiler.Steps

variable {ε σ τ α β γ δ : Type}

/-- Whether two steps from related states both succeed, and lead to results and states that are described
together, or both fail with one cause and lead to states that are described otherwise. -/
def Matches (before : σ → τ → Prop) (step : EStateM ε σ α) (other : EStateM ε τ β)
    (after : α → β → σ → τ → Prop) (failed : σ → τ → Prop) : Prop :=
  ∀ state second, before state second →
    match step state, other second with
    | .ok value last, .ok otherValue otherLast => after value otherValue last otherLast
    | .error cause last, .error otherCause otherLast => otherCause = cause ∧ failed last otherLast
    | _, _ => False

/-- Whether two steps keep states related, and give one result, which has a property. -/
def Agrees (related : σ → τ → Prop) (step : EStateM ε σ α) (other : EStateM ε τ α)
    (holds : α → Prop) : Prop :=
  Matches related step other
    (fun value otherValue last otherLast => otherValue = value ∧ holds value ∧ related last otherLast) related

/-- One state beside itself, where an invariant holds. -/
def Alone (invariant : σ → Prop) (state second : σ) : Prop :=
  second = state ∧ invariant state

namespace Matches

variable {before failed : σ → τ → Prop} {after : α → β → σ → τ → Prop} {step : EStateM ε σ α}
  {other : EStateM ε τ β}

theorem bind {next : α → EStateM ε σ γ} {otherNext : β → EStateM ε τ δ} {final : γ → δ → σ → τ → Prop}
    (first : Matches before step other after failed)
    (second : ∀ value otherValue,
      Matches (after value otherValue) (next value) (otherNext otherValue) final failed) :
    Matches before (step >>= next) (other >>= otherNext) final failed := by
  intro state otherState start
  have ends := first state otherState start
  rw [bind_run, bind_run]
  generalize step state = result at ends
  generalize other otherState = otherResult at ends
  cases result <;> cases otherResult
  · exact second _ _ _ _ ends
  · exact ends.elim
  · exact ends.elim
  · exact ends

theorem weaken {earlier failedLater : σ → τ → Prop} {later : α → β → σ → τ → Prop}
    (matched : Matches before step other after failed)
    (start : ∀ state second, earlier state second → before state second)
    (finish : ∀ value otherValue last otherLast, after value otherValue last otherLast →
      later value otherValue last otherLast)
    (fail : ∀ last otherLast, failed last otherLast → failedLater last otherLast) :
    Matches earlier step other later failedLater := by
  intro state second condition
  have ends := matched state second (start state second condition)
  generalize step state = result at ends ⊢
  generalize other second = otherResult at ends ⊢
  cases result <;> cases otherResult
  · exact finish _ _ _ _ ends
  · exact ends
  · exact ends
  · exact ⟨ends.1, fail _ _ ends.2⟩

/-- What a step comes to on its own may be added to what it comes to beside another one. -/
theorem meets {start failedHere : σ → Prop} {ends : α → σ → Prop}
    (matched : Matches before step other after failed) (met : Meets start step ends failedHere) :
    Matches (fun state second => before state second ∧ start state) step other
      (fun value otherValue last otherLast => after value otherValue last otherLast ∧ ends value last)
      fun last otherLast => failed last otherLast ∧ failedHere last := by
  rintro state second ⟨condition, own⟩
  have both := matched state second condition
  have here := met state own
  generalize step state = result at both here ⊢
  generalize other second = otherResult at both ⊢
  cases result <;> cases otherResult
  · exact ⟨both, here⟩
  · exact both
  · exact both
  · exact ⟨both.1, both.2, here⟩

/-- Steps that read their states first. -/
theorem read {next : σ → EStateM ε σ α} {otherNext : τ → EStateM ε τ β}
    (matched : ∀ state second, before state second →
      Matches before (next state) (otherNext second) after failed) :
    Matches before (get >>= next) (get >>= otherNext) after failed :=
  fun state second start => matched state second start state second start

end Matches

namespace Agrees

variable {related : σ → τ → Prop} {holds : α → Prop} {step : EStateM ε σ α} {other : EStateM ε τ α}

theorem result {value : α} (known : holds value) :
    Agrees related (pure value : EStateM ε σ α) (pure value : EStateM ε τ α) holds :=
  fun _ _ start => ⟨rfl, known, start⟩

theorem failure (cause : ε) :
    Agrees related (throw cause : EStateM ε σ α) (throw cause : EStateM ε τ α) holds :=
  fun _ _ start => ⟨rfl, start⟩

theorem update {change : σ → σ} {otherChange : τ → τ}
    (kept : ∀ state second, related state second → related (change state) (otherChange second)) :
    Agrees related (modify change : EStateM ε σ PUnit) (modify otherChange : EStateM ε τ PUnit)
      fun _ => True :=
  fun state second start => ⟨rfl, trivial, kept state second start⟩

/-- What comes after steps that agree. -/
theorem bind {next : α → EStateM ε σ γ} {otherNext : α → EStateM ε τ δ} {final : γ → δ → σ → τ → Prop}
    (agreed : Agrees related step other holds)
    (matched : ∀ value, holds value → Matches related (next value) (otherNext value) final related) :
    Matches related (step >>= next) (other >>= otherNext) final related := by
  refine Matches.bind agreed fun value otherValue state second ⟨same, known, start⟩ => ?_
  subst same
  exact matched _ known state second start

theorem andThen {next : α → EStateM ε σ γ} {otherNext : α → EStateM ε τ δ} {final : γ → δ → σ → τ → Prop}
    (agreed : Agrees related step other holds)
    (matched : ∀ value, Matches related (next value) (otherNext value) final related) :
    Matches related (step >>= next) (other >>= otherNext) final related :=
  agreed.bind fun value _ => matched value

theorem weaken {later : α → Prop} (agreed : Agrees related step other holds)
    (finish : ∀ value, holds value → later value) : Agrees related step other later :=
  Matches.weaken agreed (fun _ _ start => start)
    (fun value _ _ _ ⟨same, known, start⟩ => ⟨same, finish value known, start⟩) fun _ _ start => start

theorem forget (agreed : Agrees related step other holds) : Agrees related step other fun _ => True :=
  agreed.weaken fun _ _ => trivial

theorem branch {condition : Prop} [Decidable condition] {step' : EStateM ε σ α} {other' : EStateM ε τ α}
    (agreed : condition → Agrees related step other holds)
    (agreedElse : ¬ condition → Agrees related step' other' holds) :
    Agrees related (if condition then step else step') (if condition then other else other') holds := by
  split
  · next holds => exact agreed holds
  · next fails => exact agreedElse fails

/-- Steps that are only taken under a condition, before others. -/
theorem guarded {condition : Prop} [Decidable condition] {next : EStateM ε σ γ} {otherNext : EStateM ε τ δ}
    {final : γ → δ → σ → τ → Prop} (agreed : Agrees related step other fun _ => True)
    (matched : Matches related next otherNext final related) :
    Matches related (if condition then step >>= fun _ => next else next)
      (if condition then other >>= fun _ => otherNext else otherNext) final related := by
  split
  · exact agreed.andThen fun _ => matched
  · exact matched

/-- Steps for the values of a list, one after another. -/
theorem loop {each : α → EStateM ε σ PUnit} {otherEach : α → EStateM ε τ PUnit} {values : List α}
    (agreed : ∀ value ∈ values, Agrees related (each value) (otherEach value) fun _ => True) :
    Agrees related (values.forM each) (values.forM otherEach) fun _ => True := by
  induction values with
  | nil => exact result trivial
  | cons first rest ih =>
    exact (agreed first List.mem_cons_self).andThen fun _ =>
      ih fun value member => agreed value (List.mem_cons_of_mem _ member)

/-- A step for a value that may be missing. -/
theorem optional {each : α → EStateM ε σ PUnit} {otherEach : α → EStateM ε τ PUnit} {value : Option α}
    (agreed : ∀ found ∈ value, Agrees related (each found) (otherEach found) fun _ => True) :
    Agrees related (value.forM each) (value.forM otherEach) fun _ => True := by
  cases value with
  | none => exact result trivial
  | some found => exact agreed found rfl

end Agrees

/-- A step that keeps an invariant agrees with itself. -/
theorem Preserves.agrees {invariant : σ → Prop} {step : EStateM ε σ α} {holds : α → Prop}
    (kept : Preserves invariant step holds) : Agrees (Alone invariant) step step holds := by
  rintro _ second ⟨rfl, start⟩
  have ends := kept second start
  dsimp only
  generalize step second = result at ends ⊢
  cases result
  · exact ⟨rfl, ends.2, rfl, ends.1⟩
  · exact ⟨rfl, rfl, ends⟩

end PageCompiler.Steps
