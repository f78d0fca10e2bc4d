/-!
# Runs of steps

Edits of a document, actions on an engine and steps of a render are all steps that change a state
and may fail. These equations run a composed step one part at a time.
-/

namespace PageCompiler.Steps

variable {ε σ α β δ : Type}

theorem bind_run (first : EStateM ε σ α) (next : α → EStateM ε σ β) (state : σ) :
    (first >>= next) state =
      match first state with
      | .ok value after => next value after
      | .error cause after => .error cause after := rfl

theorem bind_of_ok {first : EStateM ε σ α} {state after : σ} {value : α}
    (run : first state = .ok value after) (next : α → EStateM ε σ β) :
    (first >>= next) state = next value after := by
  rw [bind_run, run]

theorem bind_of_error {first : EStateM ε σ α} {state after : σ} {cause : ε}
    (run : first state = .error cause after) (next : α → EStateM ε σ β) :
    (first >>= next) state = .error cause after := by
  rw [bind_run, run]

/-- A composed step succeeds exactly when its parts do. -/
theorem bind_run_eq_ok {first : EStateM ε σ α} {next : α → EStateM ε σ β} {state last : σ} {value : β} :
    (first >>= next) state = .ok value last ↔
      ∃ middle between, first state = .ok middle between ∧ next middle between = .ok value last := by
  rw [bind_run]
  cases first state with
  | ok middle between =>
    exact ⟨fun run => ⟨middle, between, rfl, run⟩, by rintro ⟨_, _, same, run⟩; cases same; exact run⟩
  | error cause between =>
    exact ⟨nofun, by rintro ⟨_, _, same, _⟩; cases same⟩

@[simp]
theorem ok_bind (value : α) (next : α → Except ε β) : (Except.ok value >>= next) = next value := rfl

/-- A composed computation gives a result exactly when its parts do. -/
theorem bind_eq_ok {first : Except ε α} {next : α → Except ε β} {value : β} :
    (first >>= next) = .ok value ↔ ∃ middle, first = .ok middle ∧ next middle = .ok value := by
  cases first <;> simp [bind, Except.bind]

theorem get_run (state : σ) : (get : EStateM ε σ σ) state = .ok state state := rfl

theorem set_run (after state : σ) : (set after : EStateM ε σ PUnit) state = .ok ⟨⟩ after := rfl

theorem modify_run (change : σ → σ) (state : σ) :
    (modify change : EStateM ε σ PUnit) state = .ok ⟨⟩ (change state) := rfl

/-- What is said of a step by when it succeeds and what it then leads to is shown by its one run. -/
theorem succeeds_iff_of_ok {step : EStateM ε σ PUnit} {state after : σ} {condition : Prop}
    {holds : σ → Prop} (run : step state = .ok ⟨⟩ after) (fits : condition) (known : holds after) :
    ((∃ last, step state = .ok ⟨⟩ last) ↔ condition) ∧ ∀ last, step state = .ok ⟨⟩ last → holds last := by
  refine ⟨iff_of_true ⟨after, run⟩ fits, fun last ran => ?_⟩
  rw [run] at ran
  cases ran
  exact known

theorem succeeds_iff_of_error {step : EStateM ε σ PUnit} {state after : σ} {cause : ε} {condition : Prop}
    {holds : σ → Prop} (run : step state = .error cause after) (unfit : ¬ condition) :
    ((∃ last, step state = .ok ⟨⟩ last) ↔ condition) ∧ ∀ last, step state = .ok ⟨⟩ last → holds last := by
  have fails (last : σ) : step state ≠ .ok ⟨⟩ last := by
    intro ran
    rw [run] at ran
    cases ran
  exact ⟨iff_of_false (not_exists.mpr fails) unfit, fun last ran => absurd ran (fails last)⟩

theorem forM_nil_run (step : α → EStateM ε σ PUnit) (state : σ) :
    (List.forM [] step) state = .ok ⟨⟩ state := rfl

theorem forM_cons_of_ok {step : α → EStateM ε σ PUnit} {state after : σ} (first : α)
    (rest : List α) (run : step first state = .ok ⟨⟩ after) :
    (List.forM (first :: rest) step) state = (List.forM rest step) after :=
  bind_of_ok run fun _ => List.forM rest step

theorem forM_cons_of_error {step : α → EStateM ε σ PUnit} {state after : σ} {cause : ε} (first : α)
    (rest : List α) (run : step first state = .error cause after) :
    (List.forM (first :: rest) step) state = .error cause after :=
  bind_of_error run fun _ => List.forM rest step

theorem forM_append_of_ok {step : α → EStateM ε σ PUnit} {first : List α} {state after : σ}
    (rest : List α) (run : (List.forM first step) state = .ok ⟨⟩ after) :
    (List.forM (first ++ rest) step) state = (List.forM rest step) after := by
  induction first generalizing state with
  | nil =>
    rw [forM_nil_run] at run
    cases run
    rfl
  | cons value others ih =>
    cases ran : step value state with
    | ok done between =>
      rw [forM_cons_of_ok value others ran] at run
      rw [List.cons_append, forM_cons_of_ok value _ ran, ih run]
    | error cause between =>
      rw [forM_cons_of_error value others ran] at run
      cases run

/-- A loop that succeeds: what holds of the state follows a list of changes. -/
theorem forM_ok_induction {holds : δ → σ → Prop} {change : δ → α → δ} {step : α → EStateM ε σ PUnit}
    (each : ∀ value data state after, holds data state → step value state = .ok ⟨⟩ after →
      holds (change data value) after) (values : List α) {data : δ} {state after : σ}
    (start : holds data state) (run : values.forM step state = .ok ⟨⟩ after) :
    holds (values.foldl change data) after := by
  induction values generalizing data state with
  | nil =>
    cases run
    exact start
  | cons first rest ih =>
    obtain ⟨_, between, firstRun, restRun⟩ := bind_run_eq_ok.mp run
    exact ih (each first data state between start firstRun) restRun

end PageCompiler.Steps
