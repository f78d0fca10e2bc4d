import PageCompiler.Proofs.Engine.PageText

/-!
# What a render does

A render whose roots cannot be mounted changes nothing. Otherwise it fails exactly when an attribute
name in the meta tags is not valid, and then it has left the roots outside the page. A render that
succeeds writes the page out of the roots as they were. In every case the nodes of users are kept.
-/

namespace PageCompiler

open Markup Steps

/-- Roots that can be mounted: they are elements, appear once, and have no parent but the body. -/
structure Engine.Mountable (engine : Engine) (roots : List NodeId) : Prop where
  live : ∀ root ∈ roots, (engine.document.element? root).isSome
  distinct : roots.Nodup
  free : ∀ root ∈ roots, engine.host? root = none

/-- What every render keeps of an engine: its identity and settings, and the nodes of users with
their data, their children and their parents, except that the body may be one or not. -/
structure Engine.Keeps (engine after : Engine) : Prop where
  sound : after.Sound
  uid : after.uid = engine.uid
  config : after.config = engine.config
  ids : after.ids = engine.ids
  hooked : after.hooked = engine.hooked
  users : ∀ {id}, engine.IsUserNode id → after.IsUserNode id
  kinds : ∀ {id}, engine.IsUserNode id → after.document.kind? id = engine.document.kind? id
  lists : ∀ {id}, engine.IsUserNode id → after.document.children id = engine.document.children id
  hosts : ∀ {id}, engine.IsUserNode id → after.host? id = engine.host? id

theorem Stage.keeps {origin : Engine} {shell : Shell} {document : Document}
    (stage : Stage origin shell document) (sound : origin.Sound) {buffers : Buffers}
    (free : ∀ rule ∈ buffers.styles, '<' ∉ rule.text) {phase : Phase} (settled : phase ≠ .compiling)
    (lastRendered : Option Text) (journal : List Event) :
    origin.Keeps { origin with
      document, shell := some shell, buffers, phase, lastRendered, journal } where
  sound := {
    document := stage.sound
    shell := fun _ known => by
      cases known
      exact stage.stands
    styles := free
    hooked := fun id member => stage.isUserNode_during sound (sound.hooked id member)
    settled := settled }
  uid := rfl
  config := rfl
  ids := rfl
  hooked := rfl
  users user := stage.isUserNode_during sound user
  kinds user := stage.kinds user
  lists user := stage.lists user
  hosts user := stage.hosts user

namespace RenderStep

variable {engine : Engine}

/-- There is no reason not to mount roots exactly when they can be mounted. -/
theorem mountProblem_eq_none_iff (document : Document) (body : Option NodeId)
    (before roots : List NodeId) :
    mountProblem document body before roots = none ↔
      (∀ root ∈ roots, (document.element? root).isSome) ∧ roots.Nodup ∧
        (∀ root ∈ roots, root ∉ before) ∧
        ∀ root ∈ roots, ((document.parent? root).filter fun parent => some parent != body) = none := by
  induction roots generalizing before with
  | nil => simp [mountProblem]
  | cons first rest ih =>
    rw [mountProblem]
    by_cases live : (document.element? first).isNone = true
    · have missing : ¬ (document.element? first).isSome := by simpa using live
      rw [if_pos live, List.forall_mem_cons]
      exact iff_of_false (by simp) fun all => missing all.1.1
    · have found : (document.element? first).isSome := by
        simpa [Option.isSome_iff_ne_none] using live
      rw [if_neg live]
      by_cases twice : before.contains first = true
      · rw [if_pos twice]
        exact iff_of_false (by simp) fun all =>
          all.2.2.1 first List.mem_cons_self (List.contains_iff_mem.mp twice)
      · rw [if_neg twice]
        rw [List.contains_iff_mem] at twice
        cases nested : (document.parent? first).filter fun parent => some parent != body with
        | some parent =>
          refine iff_of_false (by simp) fun all => ?_
          have none := all.2.2.2 first List.mem_cons_self
          rw [nested] at none
          cases none
        | none =>
          rw [ih, List.nodup_cons, List.forall_mem_cons, List.forall_mem_cons, List.forall_mem_cons]
          simp only [List.mem_cons, not_or]
          constructor
          · rintro ⟨others, distinct, apart, free⟩
            refine ⟨⟨found, others⟩, ⟨fun member => (apart first member).1 rfl, distinct⟩,
              ⟨twice, fun root member => (apart root member).2⟩, nested, free⟩
          · rintro ⟨⟨_, others⟩, ⟨fresh, distinct⟩, ⟨_, apart⟩, _, free⟩
            refine ⟨others, distinct, fun root member => ⟨?_, apart root member⟩, free⟩
            rintro rfl
            exact fresh member

theorem mountProblem_eq_none_iff_mountable (roots : List NodeId) :
    mountProblem engine.document (engine.shell.map Shell.body) [] roots = none ↔
      engine.Mountable roots := by
  rw [mountProblem_eq_none_iff]
  constructor
  · rintro ⟨live, distinct, _, free⟩
    exact ⟨live, distinct, free⟩
  · intro mountable
    exact ⟨mountable.live, mountable.distinct, fun _ _ => List.not_mem_nil, mountable.free⟩

theorem compile_run_unmountable {roots : List NodeId} (unmountable : ¬ engine.Mountable roots)
    (head : HeadConfig) :
    ∃ cause, compile roots head { engine with phase := .compiling } =
      .error cause { engine with phase := .compiling } := by
  rw [← mountProblem_eq_none_iff_mountable] at unmountable
  obtain ⟨problem, found⟩ := Option.ne_none_iff_exists'.mp unmountable
  refine ⟨problem, ?_⟩
  rw [compile, bind_of_ok (get_run _)]
  dsimp only
  rw [found]
  rfl

theorem composeScript_run (engine : Engine) :
    ∃ journal, composeScript engine = .ok (clientScript engine.config engine.buffers)
      { engine with buffers := { styles := engine.buffers.styles }, journal } := by
  rw [composeScript, bind_of_ok (get_run _), bind_of_ok (set_run _ _)]
  unfold clientScript
  dsimp only
  by_cases minify : engine.config.minifyScript = true
  · rw [if_pos minify, if_pos minify]
    cases run : Script.minify (scriptSource engine) with
    | ok short =>
      rw [scriptSource] at run
      rw [run]
      exact ⟨engine.journal, rfl⟩
    | error cause =>
      rw [scriptSource] at run
      rw [run]
      exact ⟨engine.journal ++ [.minificationFailed cause], rfl⟩
  · rw [if_neg minify, if_neg minify]
    exact ⟨engine.journal, rfl⟩

/-- Up to the head, a render whose roots can be mounted goes through. -/
theorem compile_eq (sound : engine.Sound) {roots : List NodeId} (mountable : engine.Mountable roots)
    (head : HeadConfig) :
    ∃ shell document, Building engine shell (head.language.getD defaultLanguage) [] [] document ∧
      compile roots head { engine with phase := .compiling } =
        (do
          buildHead shell.head head
          edit (roots.forM fun root => Edit.appendChild shell.body root)
          let source ← composeScript
          let script ← edit (Edit.createElement "script".toList)
          edit (Edit.setTextContent script source)
          edit (Edit.appendChild shell.body script)
          modify fun engine => { engine with shell := some { shell with script := some script } }
          let page := (← get).document.page shell.html
          modify (Engine.report (.serialized (Text.utf8Size page)))
          return page : RenderStep Text)
          { engine with document, shell := some shell, phase := .compiling } := by
  let started : Engine := { engine with phase := .compiling }
  have same : started.document = engine.document := rfl
  have sameShell : started.shell = engine.shell := rfl
  obtain ⟨shell, emptied, resetRun, noScript, stage, emptyHead, emptyBody⟩ :=
    Stage.resetShell_run sound same sameShell
  obtain ⟨document, languageRun, building⟩ := Building.language_run stage noScript emptyHead emptyBody
    (head.language.getD defaultLanguage)
  refine ⟨shell, document, building, ?_⟩
  rw [compile, bind_of_ok (get_run _)]
  dsimp only
  rw [(mountProblem_eq_none_iff_mountable roots).mpr mountable]
  dsimp only
  rw [bind_of_ok resetRun, bind_of_ok (edit_of_ok languageRun)]

/-- A render whose roots can be mounted succeeds when every attribute name is valid. -/
theorem compile_run (sound : engine.Sound) {roots : List NodeId} (mountable : engine.Mountable roots)
    (users : ∀ root ∈ roots, engine.IsUserNode root) {head : HeadConfig} (valid : head.NamesValid) :
    ∃ shell document journal, compile roots head { engine with phase := .compiling } =
        .ok (document.page shell.html)
          { engine with document, shell := some shell, buffers := {}, phase := .compiling, journal } ∧
      Finished engine shell (head.language.getD defaultLanguage)
        (headTrees engine.config engine.buffers.styles head) roots
        (clientScript engine.config engine.buffers) document := by
  obtain ⟨shell, one, building, run⟩ := compile_eq sound mountable head
  have live : ∀ root ∈ roots, engine.document.contains root = true := by
    intro root member
    obtain ⟨data, found⟩ := Option.isSome_iff_exists.mp (mountable.live root member)
    exact Document.contains_of_element? found
  have started : Building engine shell _ [] []
      { engine with document := one, shell := some shell, phase := .compiling }.document := building
  obtain ⟨two, headRun, headed⟩ := started.buildHead_run head valid
  obtain ⟨three, mountRun, mounted⟩ :=
    headed.mount_all roots users live mountable.free mountable.distinct
  obtain ⟨journal, scriptRun⟩ := composeScript_run { engine with
    document := three
    shell := some shell
    phase := .compiling
    buffers.styles := [] }
  have created : Edit.createElement "script".toList three = .ok three.slots.size
      (three.push { kind := .element { tag := "script".toList } }) := Edit.createElement_run (by decide)
  have filledRun := mounted.stage.sound.forest.scripted_run (clientScript engine.config engine.buffers)
  obtain ⟨appended, finished⟩ := mounted.finished (clientScript engine.config engine.buffers)
  let page := ((three.scripted (clientScript engine.config engine.buffers)).moved shell.body
    three.slots.size).page shell.html
  refine ⟨_, _, journal ++ [.serialized (Text.utf8Size page)], ?_, finished⟩
  rw [run, bind_of_ok headRun, bind_of_ok (edit_of_ok mountRun), bind_of_ok scriptRun,
    bind_of_ok (edit_of_ok created), bind_of_ok (edit_of_ok filledRun),
    bind_of_ok (edit_of_ok appended)]
  rfl

/-- Otherwise it fails, with nothing in the body. -/
theorem compile_run_invalid (sound : engine.Sound) {roots : List NodeId}
    (mountable : engine.Mountable roots) {head : HeadConfig} (invalid : ¬ head.NamesValid) :
    ∃ cause shell document, compile roots head { engine with phase := .compiling } =
        .error cause { engine with document, shell := some shell, phase := .compiling } ∧
      Stage engine shell document ∧ document.children shell.body = [] := by
  obtain ⟨shell, one, building, run⟩ := compile_eq sound mountable head
  have started : Building engine shell _ [] []
      { engine with document := one, shell := some shell, phase := .compiling }.document := building
  obtain ⟨cause, two, partly, headRun, stopped⟩ := started.buildHead_run_invalid head invalid
  refine ⟨.document cause, shell, two, ?_, stopped.stage, stopped.body⟩
  rw [run]
  exact bind_of_error headRun _

end RenderStep

end PageCompiler
