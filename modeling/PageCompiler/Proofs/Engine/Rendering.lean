import PageCompiler.Proofs.Engine.Attaching
import PageCompiler.Proofs.Engine.Compile

/-!
# Renders as actions

A render succeeds exactly for the roots and settings it accepts. What it leaves keeps the nodes of
users either way, so renders of engines that are alike leave engines that are alike, and give the same
page.
-/

namespace PageCompiler

open Markup

/-- Roots and settings that a render accepts: the roots are different live elements of the engine
without a parent but the body, and the names of all attributes of the meta tags are valid. -/
structure Engine.Renderable (engine : Engine) (mount : List Element) (head : HeadConfig) : Prop where
  own : ∀ root ∈ mount, engine.owns root = true
  live : ∀ root ∈ mount, (engine.document.element? root.node).isSome
  distinct : (mount.map Element.node).Nodup
  free : ∀ root ∈ mount, engine.document.parent? root.node = none ∨
    ∃ body, engine.body? = some body ∧ engine.document.parent? root.node = some body
  names : ∀ attributes ∈ head.metaTags, ∀ pair ∈ attributes, isAttributeName pair.1 = true

/-- What a render that succeeds leaves. -/
structure Engine.Rendered (engine : Engine) (page : Text) (after : Engine) : Prop where
  keeps : engine.Keeps after
  buffers : after.buffers = if engine.config.flush = .retain then engine.buffers else {}
  lastRendered : after.lastRendered = some page
  phase : after.phase = .compiled

/-- What a render that fails leaves. Only the body may have lost children. -/
structure Engine.Restored (engine after : Engine) : Prop where
  keeps : engine.Keeps after
  buffers : after.buffers = engine.buffers
  lastRendered : after.lastRendered = engine.lastRendered
  phase : after.phase = engine.phase
  parents : ∀ {id}, engine.IsUserNode id →
    (∀ body, engine.body? = some body → engine.document.parent? id ≠ some body) →
      after.document.parent? id = engine.document.parent? id

namespace Engine

variable {engine : Engine} {mount : List Element} {head : HeadConfig}

theorem renderable_iff :
    engine.Renderable mount head ↔ (∀ root ∈ mount, engine.owns root = true) ∧
      engine.Mountable (mount.map Element.node) ∧ head.NamesValid := by
  constructor
  · intro renderable
    refine ⟨renderable.own, ⟨?_, renderable.distinct, ?_⟩, renderable.names⟩
    · exact List.forall_mem_map.mpr renderable.live
    · exact List.forall_mem_map.mpr fun root member => host?_eq_none_iff.mpr (renderable.free root member)
  · rintro ⟨own, mountable, names⟩
    refine ⟨own, List.forall_mem_map.mp mountable.live, mountable.distinct, ?_, names⟩
    intro root member
    exact host?_eq_none_iff.mp (mountable.free root.node (List.mem_map_of_mem member))

theorem Sound.keeps_self (sound : engine.Sound) : engine.Keeps engine where
  sound := sound
  uid := rfl
  config := rfl
  ids := rfl
  hooked := rfl
  users user := user
  kinds _ := rfl
  lists _ := rfl
  hosts _ := rfl

theorem Sound.restored_self (sound : engine.Sound) : engine.Restored engine where
  keeps := sound.keeps_self
  buffers := rfl
  lastRendered := rfl
  phase := rfl
  parents _ _ := rfl

/-- Once the body is empty, the parent of a user node is its host. -/
theorem parent?_of_bare {after : Engine} (forest : after.document.Forest) {shell : Shell}
    (known : after.shell = some shell) (bare : after.document.children shell.body = []) {id : NodeId} :
    after.document.parent? id = after.host? id := by
  apply Option.ext
  intro parent
  rw [host?_eq_some_iff, body?_of_shell known]
  refine (and_iff_left_of_imp ?_).symm
  rintro step same
  cases same
  rw [← forest.linked, bare] at step
  cases step

end Engine

namespace Action

variable {engine : Engine} {mount : List Element} {head : HeadConfig}

theorem tryRender_eq (own : ∀ root ∈ mount, engine.owns root = true) (head : HeadConfig) :
    tryRender mount head engine =
      match RenderStep.compile (mount.map Element.node) head { engine with phase := .compiling } with
      | .ok page after =>
        .ok page { after.report (.compiled mount.length (Text.utf8Size page)) with
          buffers := if engine.config.flush = .retain then engine.buffers else after.buffers
          lastRendered := some page
          phase := .compiled }
      | .error cause after =>
        .error (.render cause) { after with buffers := engine.buffers, phase := engine.phase } := by
  have none : (mount.find? fun root => !engine.owns root) = none := by
    rw [List.find?_eq_none]
    intro root member
    simp [own root member]
  rewrite [tryRender, none]
  rfl

theorem tryRender_run_foreign (foreign : ¬ ∀ root ∈ mount, engine.owns root = true)
    (head : HeadConfig) : ∃ cause, tryRender mount head engine = .error cause engine := by
  cases found : mount.find? fun root => !engine.owns root with
  | none =>
    rw [List.find?_eq_none] at found
    refine absurd ?_ foreign
    intro root member
    simpa using found root member
  | some root =>
    refine ⟨.render (.foreign root.tag root.node), ?_⟩
    rw [tryRender, found]

/-- A render succeeds with what is compiled from its roots, which belong to the engine. -/
theorem exists_compiled {page : Text} {after : Engine} (run : tryRender mount head engine = .ok page after) :
    (∀ root ∈ mount, engine.owns root = true) ∧ ∃ last,
      RenderStep.compile (mount.map Element.node) head { engine with phase := .compiling } = .ok page last ∧
        after.document = last.document ∧ after.shell = last.shell := by
  have own : ∀ root ∈ mount, engine.owns root = true := by
    by_contra foreign
    obtain ⟨cause, refused⟩ := tryRender_run_foreign foreign head
    rw [refused] at run
    cases run
  rw [tryRender_eq own] at run
  refine ⟨own, ?_⟩
  cases compiled : RenderStep.compile (mount.map Element.node) head { engine with phase := .compiling } with
  | ok other last =>
    rw [compiled] at run
    cases run
    exact ⟨last, rfl, rfl, rfl⟩
  | error cause last =>
    rw [compiled] at run
    cases run

/-- A render that is accepted gives the page with the markup of its roots. -/
theorem tryRender_run (sound : engine.Sound)
    (users : ∀ root ∈ mount, engine.owns root = true → engine.IsUserNode root.node)
    (renderable : engine.Renderable mount head) :
    ∃ after, tryRender mount head engine =
        .ok (pageText engine.config engine.buffers head (mount.map engine.markup)) after ∧
      engine.Rendered (pageText engine.config engine.buffers head (mount.map engine.markup)) after := by
  obtain ⟨own, mountable, names⟩ := Engine.renderable_iff.mp renderable
  have userRoots : ∀ root ∈ mount.map Element.node, engine.IsUserNode root :=
    List.forall_mem_map.mpr fun root member => users root member (own root member)
  obtain ⟨shell, document, journal, run, finished⟩ :=
    RenderStep.compile_run sound mountable userRoots names
  have page : document.page shell.html =
      pageText engine.config engine.buffers head (mount.map engine.markup) := by
    rw [finished.page sound userRoots mountable.live sound.styles, List.map_map]
    unfold pageText
    rfl
  rw [tryRender_eq own, run, page]
  refine ⟨_, rfl, ?_, rfl, rfl, rfl⟩
  have free : ∀ rule ∈ (if engine.config.flush = .retain then engine.buffers else {}).styles,
      '<' ∉ rule.text := by
    split
    · exact sound.styles
    · simp
  exact finished.stage.keeps sound free (show Phase.compiled ≠ .compiling by decide) _ _

/-- Any other render fails and puts back what it had begun with. -/
theorem tryRender_run_refused (sound : engine.Sound) (refused : ¬ engine.Renderable mount head) :
    ∃ cause after, tryRender mount head engine = .error cause after ∧ engine.Restored after := by
  rw [Engine.renderable_iff] at refused
  by_cases own : ∀ root ∈ mount, engine.owns root = true
  · rw [tryRender_eq own]
    by_cases mountable : engine.Mountable (mount.map Element.node)
    · have invalid : ¬ head.NamesValid := fun valid => refused ⟨own, mountable, valid⟩
      obtain ⟨cause, shell, document, run, stage, bare⟩ :=
        RenderStep.compile_run_invalid sound mountable invalid
      rw [run]
      refine ⟨_, _, rfl, ?_, rfl, rfl, rfl, ?_⟩
      · exact stage.keeps sound sound.styles sound.settled _ _
      · intro id user notBody
        have host : engine.host? id = engine.document.parent? id := by
          apply Option.ext
          intro parent
          rw [Engine.host?_eq_some_iff]
          exact and_iff_left_of_imp fun step body => notBody parent body step
        have sameHost : (engine.during shell document).host? id = engine.host? id := stage.hosts user
        rw [← host, ← sameHost]
        have forest : (engine.during shell document).document.Forest := stage.sound.forest
        exact Engine.parent?_of_bare forest rfl bare
    · obtain ⟨cause, run⟩ := RenderStep.compile_run_unmountable mountable head
      rw [run]
      exact ⟨_, _, rfl, sound.restored_self⟩
  · obtain ⟨cause, run⟩ := tryRender_run_foreign own head
    exact ⟨cause, engine, run, sound.restored_self⟩

end Action

/-! ## Renders of alike engines -/

theorem forall_iff_of_forall₂ {α β : Type} {related : α → β → Prop} {first : α → Prop}
    {second : β → Prop} {lefts : List α} {rights : List β} (both : List.Forall₂ related lefts rights)
    (same : ∀ left right, related left right → (first left ↔ second right)) :
    (∀ left ∈ lefts, first left) ↔ ∀ right ∈ rights, second right := by
  induction both with
  | nil => simp
  | cons pair _ ih => rw [List.forall_mem_cons, List.forall_mem_cons, same _ _ pair, ih]

namespace Alike

variable {uid : Nat} {pairs : NodeId → NodeId → Prop} {first second after otherAfter : Engine}

/-- Engines stay alike while the nodes of users are kept. -/
theorem kept (alike : Alike uid pairs first second) (keeps : first.Keeps after)
    (otherKeeps : second.Keeps otherAfter) (buffers : after.buffers = otherAfter.buffers)
    (lastRendered : after.lastRendered = otherAfter.lastRendered)
    (phase : after.phase = otherAfter.phase) : Alike uid pairs after otherAfter where
  soundFirst := keeps.sound
  soundSecond := otherKeeps.sound
  uidFirst := keeps.uid.trans alike.uidFirst
  uidSecond := otherKeeps.uid.trans alike.uidSecond
  config := by rw [keeps.config, otherKeeps.config, alike.config]
  ids := by rw [keeps.ids, otherKeeps.ids, alike.ids]
  buffers := buffers
  lastRendered := lastRendered
  phase := phase
  users pair := ⟨keeps.users (alike.users pair).1, otherKeeps.users (alike.users pair).2⟩
  unique := alike.unique
  kinds pair := by
    rw [keeps.kinds (alike.users pair).1, otherKeeps.kinds (alike.users pair).2]
    exact alike.kinds pair
  lists pair := by
    rw [keeps.lists (alike.users pair).1, otherKeeps.lists (alike.users pair).2]
    exact alike.lists pair
  hosts pair := by
    rw [keeps.hosts (alike.users pair).1, otherKeeps.hosts (alike.users pair).2]
    exact alike.hosts pair
  hooked pair := by
    rw [keeps.hooked, otherKeeps.hooked]
    exact alike.hooked pair

/-- Either both engines can mount paired nodes or none can. -/
theorem mountable_iff (alike : Alike uid pairs first second) {roots others : List NodeId}
    (both : List.Forall₂ pairs roots others) : first.Mountable roots ↔ second.Mountable others := by
  have live : (∀ root ∈ roots, (first.document.element? root).isSome) ↔
      ∀ root ∈ others, (second.document.element? root).isSome := by
    apply forall_iff_of_forall₂ both
    intro left right pair
    rw [alike.element? pair]
  have free : (∀ root ∈ roots, first.host? root = none) ↔
      ∀ root ∈ others, second.host? root = none := by
    apply forall_iff_of_forall₂ both
    intro left right pair
    rcases alike.hosts_cases pair with ⟨found, other⟩ | ⟨_, _, found, other, _⟩ <;> simp [found, other]
  have distinct := List.rel_nodup alike.biUnique both
  constructor
  · intro mountable
    exact ⟨live.mp mountable.live, distinct.mp mountable.distinct, free.mp mountable.free⟩
  · intro mountable
    exact ⟨live.mpr mountable.live, distinct.mpr mountable.distinct, free.mpr mountable.free⟩

section Mounts

variable {mount others : List Element}

theorem own_iff (alike : Alike uid pairs first second)
    (both : List.Forall₂ (Element.Agree uid pairs) mount others) :
    (∀ root ∈ mount, first.owns root = true) ↔ ∀ root ∈ others, second.owns root = true := by
  apply forall_iff_of_forall₂ both
  intro root other agree
  rw [Engine.owns, Engine.owns, agree.1, alike.uidFirst, alike.uidSecond]

theorem pairs_of_own (alike : Alike uid pairs first second)
    (both : List.Forall₂ (Element.Agree uid pairs) mount others)
    (own : ∀ root ∈ mount, first.owns root = true) :
    List.Forall₂ (fun root other => pairs root.node other.node) mount others := by
  have pairedOwn := (List.forall₂_and_left mount others).mpr ⟨own, both⟩
  apply pairedOwn.imp
  rintro root other ⟨mine, agree⟩
  exact agree.2.2 ((of_decide_eq_true mine).trans alike.uidFirst)

theorem renderable_iff (alike : Alike uid pairs first second)
    (both : List.Forall₂ (Element.Agree uid pairs) mount others) (head : HeadConfig) :
    first.Renderable mount head ↔ second.Renderable others head := by
  rw [Engine.renderable_iff, Engine.renderable_iff, alike.own_iff both]
  apply and_congr_right
  intro own
  have nodes : List.Forall₂ pairs (mount.map Element.node) (others.map Element.node) := by
    rw [List.forall₂_map_left_iff, List.forall₂_map_right_iff]
    exact alike.pairs_of_own both ((alike.own_iff both).mpr own)
  rw [alike.mountable_iff nodes]

theorem map_markup_eq (alike : Alike uid pairs first second)
    (both : List.Forall₂ (fun root other => pairs root.node other.node) mount others) :
    mount.map first.markup = others.map second.markup := by
  rw [← List.forall₂_eq_eq_eq, List.forall₂_map_left_iff, List.forall₂_map_right_iff]
  exact both.imp fun _ _ pair => alike.markup pair

theorem users_of_own (alike : Alike uid pairs first second)
    (both : List.Forall₂ (Element.Agree uid pairs) mount others) :
    (∀ root ∈ mount, first.owns root = true → first.IsUserNode root.node) ∧
      ∀ root ∈ others, second.owns root = true → second.IsUserNode root.node := by
  induction both with
  | nil => exact ⟨(by simp), (by simp)⟩
  | cons agree _ ih =>
    rw [List.forall_mem_cons, List.forall_mem_cons]
    refine ⟨⟨fun own => ?_, ih.1⟩, fun own => ?_, ih.2⟩
    · exact (alike.users (agree.2.2 ((of_decide_eq_true own).trans alike.uidFirst))).1
    · have mine := (of_decide_eq_true own).trans alike.uidSecond
      exact (alike.users (agree.2.2 (agree.1.trans mine))).2

end Mounts

end Alike

namespace Mirrors

variable {uid : Nat} {pairs : NodeId → NodeId → Prop} {mount others : List Element}

theorem tryRender (both : List.Forall₂ (Element.Agree uid pairs) mount others) (head : HeadConfig) :
    Mirrors uid pairs Same (Action.tryRender mount head) (Action.tryRender others head) := by
  intro wider widens first second alike
  have both := both.imp fun _ _ agree => Element.Agree.widen agree widens
  have users := alike.users_of_own both
  by_cases renderable : first.Renderable mount head
  · have otherRenderable := (alike.renderable_iff both head).mp renderable
    obtain ⟨after, run, rendered⟩ := Action.tryRender_run alike.soundFirst users.1 renderable
    obtain ⟨otherAfter, otherRun, otherRendered⟩ :=
      Action.tryRender_run alike.soundSecond users.2 otherRenderable
    have page : pageText first.config first.buffers head (mount.map first.markup) =
        pageText second.config second.buffers head (others.map second.markup) := by
      rw [alike.config, alike.buffers, alike.map_markup_eq (alike.pairs_of_own both renderable.own)]
    rw [run, otherRun]
    refine ⟨wider, le_refl _, ?_, page⟩
    apply alike.kept rendered.keeps otherRendered.keeps
    · rw [rendered.buffers, otherRendered.buffers, alike.config, alike.buffers]
    · rw [rendered.lastRendered, otherRendered.lastRendered, page]
    · rw [rendered.phase, otherRendered.phase]
  · have otherRefused := fun other => renderable ((alike.renderable_iff both head).mpr other)
    obtain ⟨cause, after, run, restored⟩ := Action.tryRender_run_refused alike.soundFirst renderable
    obtain ⟨otherCause, otherAfter, otherRun, otherRestored⟩ :=
      Action.tryRender_run_refused alike.soundSecond otherRefused
    rw [run, otherRun]
    refine ⟨wider, le_refl _, ?_⟩
    apply alike.kept restored.keeps otherRestored.keeps
    · rw [restored.buffers, otherRestored.buffers, alike.buffers]
    · rw [restored.lastRendered, otherRestored.lastRendered, alike.lastRendered]
    · rw [restored.phase, otherRestored.phase, alike.phase]

theorem render (both : List.Forall₂ (Element.Agree uid pairs) mount others) (head : HeadConfig) :
    Mirrors uid pairs Same (Action.render mount head) (Action.render others head) := by
  intro wider widens first second alike
  have ends := tryRender both head wider widens first second alike
  rw [Action.render, Action.render]
  generalize Action.tryRender mount head first = run at ends
  generalize Action.tryRender others head second = otherRun at ends
  cases run with
  | ok page after =>
    cases otherRun with
    | ok otherPage otherAfter =>
      obtain ⟨widest, further, alikeAfter, _⟩ := ends
      exact ⟨widest, further, alikeAfter, rfl⟩
    | error _ _ => exact ends.elim
  | error cause after =>
    cases otherRun with
    | ok _ _ => exact ends.elim
    | error otherCause otherAfter =>
      obtain ⟨widest, further, alikeAfter⟩ := ends
      exact ⟨widest, further, alikeAfter.withJournals _ _, rfl⟩

end Mirrors

end PageCompiler
