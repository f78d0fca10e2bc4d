import PageCompiler.Proofs.Engine.Reached

/-!
# Renders in sessions

When a render succeeds and what page it gives, in every session; and that a render that fails cannot
be noticed afterwards.
-/

namespace PageCompiler

open Markup

/-- The element of a session that has made one paragraph. -/
def paragraph : Element := ⟨0, 0, "p".toList⟩

theorem reachable_paragraph : ∃ engine, Engine.Reachable engine { elements := [paragraph] } ∧
    engine.uid = 0 ∧ engine.shell = none ∧
    engine.document = { slots := #[some { kind := .element { tag := "p".toList } }] } := by
  have opened : Engine.Reachable (Engine.new 0 {} 7) {} := .opened 0 {} 7
  have run : (Command.createElement "p".toList).perform {} (Engine.new 0 {} 7) =
      (.text "p".toList, { elements := [paragraph] },
        ((Command.createElement "p".toList).perform {} (Engine.new 0 {} 7)).2.2) := rfl
  exact ⟨_, opened.performed run not_false, rfl, rfl, rfl⟩

namespace Engine.Reachable

variable {engine : Engine} {held : Held} {mount : List Element}

theorem users (reached : engine.Reachable held) (given : ∀ root ∈ mount, root ∈ held.elements) :
    ∀ root ∈ mount, engine.owns root = true → engine.IsUserNode root.node :=
  fun root member => reached.fits.users root (given root member)

/-- A render succeeds exactly for the roots and settings that are accepted. The page then depends on
the settings, what was collected and the markup of the roots only, whatever was rendered before. -/
theorem tryRender_iff (reached : engine.Reachable held) (given : ∀ root ∈ mount, root ∈ held.elements)
    (head : HeadConfig) :
    ((∃ page after, Action.tryRender mount head engine = .ok page after) ↔
        engine.Renderable mount head) ∧
      ∀ page after, Action.tryRender mount head engine = .ok page after →
        page = pageText engine.config engine.buffers head (mount.map engine.markup) := by
  have sound := reached.fits.sound
  by_cases renderable : engine.Renderable mount head
  · obtain ⟨after, run, _⟩ := Action.tryRender_run sound (reached.users given) renderable
    refine ⟨iff_of_true ⟨_, _, run⟩ renderable, ?_⟩
    intro page other ran
    rw [run] at ran
    cases ran
    rfl
  · obtain ⟨cause, after, run, _⟩ := Action.tryRender_run_refused sound renderable
    rw [run]
    refine ⟨iff_of_false ?_ renderable, ?_⟩
    · rintro ⟨page, other, ran⟩
      cases ran
    · intro page other ran
      cases ran

end Engine.Reachable

theorem tryRender_iff_paragraph : ∃ engine, Engine.Reachable engine { elements := [paragraph] } ∧
    ∃ page after, Action.tryRender [paragraph] {} engine = .ok page after ∧
      page = pageText engine.config engine.buffers {} ["<p></p>".toList] := by
  obtain ⟨engine, reached, uid, shell, document⟩ := reachable_paragraph
  have given : ∀ root ∈ [paragraph], root ∈ [paragraph] := fun _ member => member
  obtain ⟨succeeds, page⟩ := reached.tryRender_iff given {}
  have renderable : engine.Renderable [paragraph] {} := by
    constructor
    · rw [List.forall_mem_singleton, Engine.owns, uid]
      rfl
    · rw [List.forall_mem_singleton, document]
      rfl
    · exact List.nodup_singleton _
    · rw [List.forall_mem_singleton, document]
      exact Or.inl rfl
    · simp
  have markup : engine.markup paragraph = "<p></p>".toList := by
    rw [Engine.markup, document]
    decide
  obtain ⟨text, after, run⟩ := succeeds.mpr renderable
  refine ⟨engine, reached, text, after, run, ?_⟩
  rw [page text after run, List.map_singleton, markup]

/-- An engine that its caller cannot tell from an earlier one: what was collected, the last page, the
phase, the identifiers and the hooked elements are as they were, so are the elements that are held, and
whatever the caller does next with them is answered in the same way. -/
structure Engine.AsBefore (engine : Engine) (held : Held) (after : Engine) : Prop where
  buffers : after.buffers = engine.buffers
  lastRendered : after.lastRendered = engine.lastRendered
  phase : after.phase = engine.phase
  settled : after.phase ≠ .compiling
  ids : after.ids = engine.ids
  hooked : after.hooked = engine.hooked
  markup : ∀ element ∈ held.elements, engine.owns element = true →
    after.markup element = engine.markup element
  children : ∀ element ∈ held.elements, engine.owns element = true →
    after.document.children element.node = engine.document.children element.node
  data : ∀ element ∈ held.elements, engine.owns element = true →
    after.document.element? element.node = engine.document.element? element.node
  parent : ∀ element ∈ held.elements, engine.owns element = true →
    (∀ body, engine.body? = some body → engine.document.parent? element.node ≠ some body) →
      after.document.parent? element.node = engine.document.parent? element.node
  answers : ∀ later : Held, (∀ element ∈ later.elements, element ∈ held.elements) →
    (∀ id ∈ later.nodes, engine.IsUserNode id) → ∀ commands,
      Command.answers commands later after = Command.answers commands later engine

namespace Engine

variable {engine after : Engine} {held : Held}

theorem Restored.asBefore (restored : engine.Restored after) (fits : engine.Fits held) :
    engine.AsBefore held after := by
  have alike : Alike engine.uid engine.selfPairs after engine :=
    fits.sound.alike_self.kept restored.keeps fits.sound.keeps_self restored.buffers
      restored.lastRendered restored.phase
  have pair {element : Element} (member : element ∈ held.elements) (own : engine.owns element = true) :
      engine.selfPairs element.node element.node := ⟨rfl, fits.users element member own⟩
  constructor
  · exact restored.buffers
  · exact restored.lastRendered
  · exact restored.phase
  · exact restored.keeps.sound.settled
  · exact restored.keeps.ids
  · exact restored.keeps.hooked
  · exact fun element member own => alike.markup (pair member own)
  · exact fun element member own => restored.keeps.lists (fits.users element member own)
  · exact fun element member own => alike.element? (pair member own)
  · exact fun element member own => restored.parents (fits.users element member own)
  · intro later known users commands
    apply alike.answers_eq
    constructor
    · exact List.forall₂_same.mpr fun element member => fits.agree (known element member)
    · exact List.forall₂_same.mpr fun id member => ⟨rfl, users id member⟩

/-- A render that fails, for whatever reason, cannot be noticed afterwards. -/
theorem Reachable.tryRender_failed (reached : engine.Reachable held) {mount : List Element}
    (given : ∀ root ∈ mount, root ∈ held.elements) {head : HeadConfig} {cause : Error}
    (failed : Action.tryRender mount head engine = .error cause after) :
    engine.AsBefore held after := by
  by_cases renderable : engine.Renderable mount head
  · obtain ⟨other, run, _⟩ :=
      Action.tryRender_run reached.fits.sound (reached.users given) renderable
    rw [run] at failed
    cases failed
  · obtain ⟨other, last, run, restored⟩ :=
      Action.tryRender_run_refused reached.fits.sound renderable
    rw [run] at failed
    cases failed
    exact restored.asBefore reached.fits

end Engine

theorem tryRender_failed_paragraph : ∃ engine cause after,
    Engine.Reachable engine { elements := [paragraph] } ∧
      Action.tryRender [paragraph] { metaTags := [[("a b".toList, [])]] } engine =
        .error cause after ∧
      engine.AsBefore { elements := [paragraph] } after := by
  obtain ⟨engine, reached, _⟩ := reachable_paragraph
  have given : ∀ root ∈ [paragraph], root ∈ [paragraph] := fun _ member => member
  have refused : ¬ engine.Renderable [paragraph] { metaTags := [[("a b".toList, [])]] } := by
    intro renderable
    have valid := renderable.names _ List.mem_cons_self _ List.mem_cons_self
    revert valid
    decide
  obtain ⟨cause, after, failed, _⟩ := Action.tryRender_run_refused reached.fits.sound refused
  exact ⟨engine, cause, after, reached, failed, reached.tryRender_failed given failed⟩

end PageCompiler
