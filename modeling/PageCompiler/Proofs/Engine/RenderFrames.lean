import PageCompiler.Proofs.Engine.Compile
import PageCompiler.Proofs.Engine.Guarding

/-!
# Renders within frames

A render keeps what is watched of a document, whether it succeeds or fails and wherever the elements
around the roots have been put: it removes only what is in the head and the script. It has two parts: the
page is prepared, up to the roots in its body, and then it is finished by the client script.
-/

namespace PageCompiler

open Markup Steps

namespace RenderStep

/-- The first part of a render: everything but the client script. -/
def prepare (roots : List NodeId) (head : HeadConfig) : RenderStep Shell := do
  let engine ← get
  match mountProblem engine.document (engine.shell.map Shell.body) [] roots with
  | some problem => throw problem
  | none => pure ()
  let shell ← resetShell
  edit (Edit.setAttribute shell.html "lang".toList (head.language.getD defaultLanguage))
  buildHead shell.head head
  edit (roots.forM fun root => Edit.appendChild shell.body root)
  return shell

/-- The second part of a render: the client script, and the page as a text. -/
def finish (shell : Shell) : RenderStep Text := do
  let source ← composeScript
  let script ← edit (Edit.createElement "script".toList)
  edit (Edit.setTextContent script source)
  edit (Edit.appendChild shell.body script)
  modify fun engine => { engine with shell := some { shell with script := some script } }
  let page := (← get).document.page shell.html
  modify (Engine.report (.serialized (Text.utf8Size page)))
  return page

theorem compile_eq_prepare (roots : List NodeId) (head : HeadConfig) :
    compile roots head = prepare roots head >>= finish := by
  rw [compile, prepare]
  simp only [bind_assoc]
  congr 1
  funext engine
  cases mountProblem engine.document (engine.shell.map Shell.body) [] roots with
  | some problem => rfl
  | none =>
    simp only [bind_assoc, pure_bind]
    rfl

/-- The last part of a render puts the client script at the end of the body and writes the page. -/
theorem finish_eq_ok {shell : Shell} {engine after : Engine} {page : Text}
    (forest : engine.document.Forest) (inside : shell.body < engine.document.slots.size)
    (run : finish shell engine = .ok page after) :
    page = after.document.page shell.html ∧
      after.shell = some { shell with script := some engine.document.slots.size } ∧
      after.document.Forest ∧
      (∀ id < engine.document.slots.size, after.document.kind? id = engine.document.kind? id ∧
        after.document.children id = engine.document.children id ++
          if id = shell.body then [engine.document.slots.size] else []) ∧
      after.document.tree? engine.document.slots.size = some
        (Tree.filled { tag := "script".toList } (clientScript engine.config engine.buffers)) := by
  obtain ⟨state, composed, same⟩ : ∃ state, composeScript engine =
      .ok (clientScript engine.config engine.buffers) state ∧ state.document = engine.document := by
    obtain ⟨journal, composed⟩ := composeScript_run engine
    exact ⟨_, composed, rfl⟩
  generalize clientScript engine.config engine.buffers = source at composed ⊢
  rw [← same] at forest inside ⊢
  have created : Edit.createElement "script".toList state.document = .ok state.document.slots.size
      (state.document.push { kind := .element { tag := "script".toList } }) :=
    Edit.createElement_run (by decide)
  rw [finish, bind_of_ok composed, bind_of_ok (edit_of_ok created),
    bind_of_ok (edit_of_ok (forest.scripted_run source))] at run
  cases problem : Edit.appendProblem (state.document.scripted source) shell.body
      state.document.slots.size with
  | some cause =>
    rw [bind_of_error (edit_of_error (Edit.appendChild_run_problem problem))] at run
    cases run
  | none =>
    rw [bind_of_ok (edit_of_ok (Edit.appendChild_run (forest.scripted source) problem))] at run
    obtain ⟨moved, kept, scriptTree⟩ := forest.scripted_moved source inside problem
    cases run
    exact ⟨rfl, rfl, moved, kept, scriptTree⟩

end RenderStep

namespace Shell.Remains

variable {shell : Shell} {frame : Frame} {document : Document}

theorem head_ne_html (remains : shell.Remains frame document) : shell.head ≠ shell.html := by
  intro same
  have tags := remains.head
  rw [same, remains.html] at tags
  cases tags

theorem body_ne_html (remains : shell.Remains frame document) : shell.body ≠ shell.html := by
  intro same
  have tags := remains.body
  rw [same, remains.html] at tags
  cases tags

theorem body_ne_head (remains : shell.Remains frame document) : shell.body ≠ shell.head := by
  intro same
  have tags := remains.body
  rw [same, remains.head] at tags
  cases tags

end Shell.Remains

namespace Frame

/-- A frame around other elements. -/
def around (frame : Frame) (shell : Shell) : Frame :=
  { frame with shell := some shell }

variable {frame : Frame} {shell : Shell} {document : Document}

theorem isKept_around (known : frame.shell = some shell) (script : Option NodeId) (id : NodeId) :
    (frame.around { shell with script }).IsKept id ↔ frame.IsKept id := by
  apply or_congr_right
  rw [IsPart, IsPart, around, known]
  simp

namespace Fits

/-- The elements around the roots may have another script that is not to be kept. -/
theorem rescripted (fits : frame.Fits document) (known : frame.shell = some shell)
    {script : Option NodeId}
    (loose : ∀ id, script = some id → id < document.slots.size ∧ ¬ frame.IsKept id) :
    (frame.around { shell with script }).Fits document where
  sound := fits.sound
  users id user := by
    refine ⟨(fits.users id user).1, fun part => (fits.users id user).2 ?_⟩
    obtain ⟨other, otherKnown, place⟩ := part
    cases otherKnown
    exact ⟨shell, known, place⟩
  names := fits.names
  hosts child parent step kept := by
    rw [isKept_around known] at kept ⊢
    exact fits.hosts child parent step kept
  shell other otherKnown := by
    cases otherKnown
    have remains := fits.shell shell known
    refine { remains with inHead := ?_, script := ?_ }
    · intro child step
      rw [isKept_around known]
      exact remains.inHead child step
    · intro id scriptKnown
      rw [isKept_around known]
      exact loose id scriptKnown
  lost isLost := by
    obtain ⟨other, otherKnown, apart⟩ := fits.lost isLost
    rw [known, Option.some.injEq] at otherKnown
    subst otherKnown
    exact ⟨_, rfl, apart⟩

/-- A first render puts the elements around the roots next to everything else. -/
theorem withShell (fits : frame.Fits document) (known : frame.shell = none) :
    (frame.around (Shell.next document)).Fits document.withShell := by
  have kinds {id : NodeId} (inside : id < document.slots.size) :
      document.withShell.kind? id = document.kind? id := by
    have old (count : Nat) : id ≠ document.slots.size + count :=
      Nat.ne_of_lt (Nat.lt_of_lt_of_le inside (Nat.le_add_right _ _))
    rw [Document.kind?_withShell, Document.kind?_withParts, if_neg (old 2), if_neg (old 1),
      if_neg (Nat.ne_of_lt inside)]
  have tag {id : NodeId} {data : ElementData} (found : document.withParts.element? id = some data) :
      document.withShell.tag? id = some data.tag := by
    rw [Document.tag?_congr (Document.kind?_withShell id), Document.tag?, found]
    rfl
  have inside {id : NodeId} (user : frame.users id) : id < document.slots.size :=
    fits.lt_size_of_kept (Or.inl user)
  have fresh {id : NodeId}
      (part : (frame.around (Shell.next document)).IsPart id) : document.slots.size ≤ id := by
    obtain ⟨shell, same, place⟩ := part
    cases same
    rcases place with rfl | rfl | rfl <;> simp [Shell.next]
  have steps {child parent : NodeId} (step : document.withShell.parent? child = some parent) :
      (parent = document.slots.size ∨ document.parent? child = some parent) := by
    rw [Document.parent?_withShell] at step
    split at step
    · exact Or.inl (Option.some.inj step).symm
    · exact Or.inr step
  constructor
  · exact Document.Sound.withShell fits.sound
  · intro id user
    refine ⟨?_, fun part => Nat.not_lt.mpr (fresh part) (inside user)⟩
    rw [Document.element?_congr (kinds (inside user))]
    exact (fits.users id user).1
  · intro id name named
    obtain ⟨user, found⟩ := fits.names id name named
    rw [Document.attribute?_congr (kinds (inside user))]
    exact ⟨user, found⟩
  · intro child parent step kept
    rcases steps step with rfl | old
    · exact Or.inr ⟨_, rfl, Or.inl rfl⟩
    · have live := Document.lt_size_of_contains (Document.contains_of_parent? old)
      have user := kept.resolve_right fun part => Nat.not_lt.mpr (fresh part) live
      refine Or.inl ((fits.hosts child parent old (Or.inl user)).resolve_right ?_)
      rintro ⟨shell, found, _⟩
      rw [known] at found
      cases found
  · intro shell same
    cases same
    constructor
    · exact tag Document.element?_withParts_html
    · exact tag Document.element?_withParts_head
    · exact tag Document.element?_withParts_body
    · show (document.withShell.children document.slots.size).Sublist _
      rw [Document.children_withShell fits.sound, if_pos rfl,
        Document.children_of_node?_none (Document.node?_of_size_le (Nat.le_refl _)), List.nil_append]
      exact List.Sublist.refl _
    · intro child step
      rcases steps step with same | old
      · exact absurd same (Nat.ne_of_gt (Nat.lt_succ_self _))
      · have live := Document.lt_size_of_contains (fits.sound.forest.contains_parent old)
        exact absurd live (Nat.not_lt.mpr (Nat.le_add_right _ _))
    · intro script none
      cases none
    · intro _
      rw [Document.parent?_withShell]
      simp [Shell.next]
  · intro isLost
    obtain ⟨shell, found, _⟩ := fits.lost isLost
    rw [known] at found
    cases found

end Fits

end Frame

namespace Engine.Within

variable {origin : Engine} {frame : Frame} {shell : Shell} {α : Type}

theorem render {change : Edit α} {holds : α → Prop} (kept : Preserves frame.Fits change holds) :
    Preserves (origin.Within frame) (RenderStep.edit change) holds :=
  edit kept

/-- The elements around the roots are known from now on by their script, or to have none. -/
theorem around {engine : Engine} (within : origin.Within frame engine)
    (fits : (frame.around shell).Fits engine.document) :
    origin.Within (frame.around shell) { engine with shell := some shell } :=
  { within with fits, shell := rfl }

/-! ## Preparing the page -/

/-- The page around the roots is emptied. -/
theorem emptyPage (known : frame.shell = some shell) :
    Meets (origin.Within frame) (RenderStep.emptyPage shell)
      (fun shell => origin.Within (frame.around shell)) (origin.Within frame) := by
  have cleared {id : NodeId} (apart : ∀ document, frame.Fits document → id ≠ shell.html) :
      Preserves (origin.Within frame) (RenderStep.edit (Edit.clearChildren id)) fun children =>
        ∀ other, frame.shell = some other → id = other.head → ∀ child ∈ children,
          ¬ frame.IsKept child := by
    refine render (Preserves.given fun document fits => Frame.preserves_clearChildren ?_)
    intro other otherKnown _
    rw [known, Option.some.injEq] at otherKnown
    rw [← otherKnown]
    exact apart document fits
  have ended : Meets (origin.Within frame) (do
      modify fun engine => { engine with shell := some { shell with script := none } }
      return { shell with script := none } : RenderStep Shell)
      (fun shell => origin.Within (frame.around shell)) (origin.Within frame) :=
    fun engine within => within.around (within.fits.rescripted known (by simp))
  unfold RenderStep.emptyPage
  refine (cleared fun _ fits => (fits.shell shell known).head_ne_html).meets_bind
    fun former loose => ?_
  refine (render (Preserves.loop fun child listed =>
    Frame.preserves_remove (loose shell known rfl child listed))).meets_bind fun _ _ => ?_
  refine (cleared fun _ fits => (fits.shell shell known).body_ne_html).meets_bind fun _ _ => ?_
  cases scriptKnown : shell.script with
  | none => exact ended
  | some script =>
    have removed : Preserves (origin.Within frame) (RenderStep.edit (Edit.remove script))
        fun _ => True := by
      refine render (Preserves.given fun _ fits => ?_)
      exact Frame.preserves_remove ((fits.shell shell known).script script scriptKnown).2
    exact removed.meets_bind fun _ _ => ended

/-- With elements around the roots that were only just made, nothing is to be emptied. -/
theorem resetShell_run {engine : Engine} (sound : engine.document.Sound) (known : engine.shell = none) :
    RenderStep.resetShell engine = .ok (Shell.next engine.document)
      { engine with
        document := (engine.document.withShell.cleared (engine.document.slots.size + 1)).cleared
          (engine.document.slots.size + 2)
        shell := some (Shell.next engine.document) } := by
  have whole := Document.Sound.withShell sound
  have childless (count : Nat) (new : 0 < count) :
      engine.document.withShell.children (engine.document.slots.size + count) = [] := by
    rw [Document.children_withShell sound, if_neg (Nat.ne_of_gt (Nat.lt_add_of_pos_right new)),
      List.append_nil]
    exact Document.children_of_node?_none (Document.node?_of_size_le (Nat.le_add_right _ _))
  have live {id : NodeId} {data : ElementData} (found : engine.document.withParts.element? id = some data) :
      engine.document.withShell.contains id = true := by
    rw [Document.contains_congr (Document.kind?_withShell id)]
    exact Document.contains_of_element? found
  have headRun := Edit.clearChildren_run whole.forest (live Document.element?_withParts_head)
  have bodyLive : (engine.document.withShell.cleared (engine.document.slots.size + 1)).contains
      (engine.document.slots.size + 2) = true := by
    rw [Document.cleared, Document.contains_relinked]
    exact live Document.element?_withParts_body
  have bodyRun := Edit.clearChildren_run (whole.forest.cleared _) bodyLive
  rw [childless 1 (by decide)] at headRun
  rw [RenderStep.resetShell, bind_of_ok (get_run engine), known]
  dsimp only
  rw [bind_of_ok (RenderStep.createShell_run sound), Shell.next]
  dsimp only
  rw [bind_of_ok (RenderStep.edit_of_ok headRun),
    bind_of_ok (RenderStep.edit_of_ok (forM_nil_run _ _)), bind_of_ok (RenderStep.edit_of_ok bodyRun)]
  rfl

theorem resetShell :
    Meets (origin.Within frame) RenderStep.resetShell (fun shell => origin.Within (frame.around shell))
      (origin.Within frame) := by
  intro engine within
  cases known : frame.shell with
  | none =>
    rw [resetShell_run within.fits.sound (within.shell.trans known)]
    have fits := within.fits.withShell known
    refine { within with fits := (fits.cleared ?_).cleared ?_, shell := rfl }
    · rintro shell same _
      cases same
      exact Nat.ne_of_gt (Nat.lt_succ_self _)
    · rintro shell same _
      cases same
      exact Nat.ne_of_gt (Nat.lt_add_of_pos_right (by decide))
  | some shell =>
    rw [RenderStep.resetShell, bind_of_ok (get_run engine), within.shell, known]
    exact emptyPage known engine within

theorem fill {node : NodeId} (loose : ¬ frame.IsKept node) (content : Text) :
    Preserves (origin.Within frame) (RenderStep.edit (Edit.setTextContent node content))
      fun _ => True := by
  refine render (Frame.preserves_setTextContent content fun other otherKnown same => loose ?_)
  rw [same]
  exact Or.inr (Frame.Fits.isPart_html otherKnown)

section Head

variable (known : frame.shell = some shell)

include known

/-- What is put into the head need not be kept. -/
theorem addToHead (tag : Text) (attributes : List (Text × Text)) :
    Preserves (origin.Within frame) (RenderStep.addToHead shell.head tag attributes)
      fun node => ¬ frame.IsKept node := by
  refine (render (Frame.preserves_createElement tag)).bind fun node loose => ?_
  have appended : Preserves (origin.Within frame)
      (RenderStep.edit (Edit.appendChild shell.head node)) fun _ => True := by
    refine render (Preserves.given fun document fits => ?_)
    apply Frame.preserves_appendChild fun kept => absurd kept loose
    intro other otherKnown
    rw [known, Option.some.injEq] at otherKnown
    rw [← otherKnown]
    refine ⟨(fits.shell shell known).head_ne_html, fun _ => loose, fun _ same => loose ?_⟩
    rw [same]
    exact Or.inr (Frame.Fits.isPart_body known)
  have written : Preserves (origin.Within frame) (RenderStep.edit (attributes.forM fun pair =>
      Edit.setAttribute node pair.1 pair.2)) fun _ => True := by
    refine render (Preserves.given fun document fits => Preserves.loop fun pair _ => ?_)
    exact Frame.preserves_setAttribute fun _ kept named =>
      absurd (Or.inl (fits.names node kept named).1) loose
  exact appended.andThen fun _ => written.andThen fun _ => Preserves.result loose

theorem addAll {β : Type} (values : List β) (tag : Text) (attributes : β → List (Text × Text)) :
    Preserves (origin.Within frame) (values.forM fun value => do
      let _ ← RenderStep.addToHead shell.head tag (attributes value)) fun _ => True :=
  Preserves.loop fun value _ =>
    (addToHead known tag (attributes value)).andThen fun _ => Preserves.result trivial

theorem buildHead (head : HeadConfig) :
    Preserves (origin.Within frame) (RenderStep.buildHead shell.head head) fun _ => True := by
  have last : Preserves (origin.Within frame) (do
      let style ← RenderStep.addToHead shell.head "style".toList []
      let css := (← get).buffers.styles.text
      modify fun engine => { engine with buffers.styles := [] }
      if !css.isEmpty then
        RenderStep.edit (Edit.setTextContent style css) : RenderStep Unit) fun _ => True := by
    refine (addToHead known _ _).bind fun style loose => ?_
    refine Preserves.state.andThen fun engine => ?_
    refine (Preserves.update fun _ within => { within with }).andThen fun _ => ?_
    exact Preserves.branch (fun _ => fill loose _) fun _ => Preserves.result trivial
  refine (addToHead known _ _).andThen fun _ => ?_
  refine (addToHead known _ _).bind fun title loose => Preserves.state.andThen fun engine => ?_
  refine (fill loose _).andThen fun _ => Preserves.guarded (addToHead known _ _).forget ?_
  refine (addAll known head.metaTags "meta".toList id).andThen fun _ => ?_
  refine (addAll known head.scripts "script".toList fun source => [("src".toList, source)]).andThen
    fun _ => ?_
  refine (addAll known head.stylesheets "link".toList
    (RenderStep.linkAttributes "stylesheet".toList)).andThen fun _ => ?_
  split
  · exact (addToHead known _ _).andThen fun _ => last
  · exact last

end Head

/-- Up to the client script, a render stays within its frame, and then the elements around the roots
are known. -/
theorem prepare {roots : List NodeId} (users : ∀ root ∈ roots, frame.users root) (head : HeadConfig) :
    Meets (origin.Within frame) (RenderStep.prepare roots head)
      (fun shell => origin.Within (frame.around shell))
      (fun engine => ∃ shell, origin.Within { frame with shell } engine) := by
  have unchanged (engine : Engine) (within : origin.Within frame engine) :
      ∃ shell, origin.Within { frame with shell } engine := ⟨frame.shell, within⟩
  have stopped (shell : Shell) (engine : Engine) (within : origin.Within (frame.around shell) engine) :
      ∃ shell, origin.Within { frame with shell } engine := ⟨some shell, within⟩
  have filled (shell : Shell) : Preserves (origin.Within (frame.around shell)) (do
      RenderStep.edit (Edit.setAttribute shell.html "lang".toList
        (head.language.getD RenderStep.defaultLanguage))
      RenderStep.buildHead shell.head head
      RenderStep.edit (roots.forM fun root => Edit.appendChild shell.body root)
      return shell) fun result => result = shell := by
    have known : (frame.around shell).shell = some shell := rfl
    have language : Preserves (origin.Within (frame.around shell))
        (RenderStep.edit (Edit.setAttribute shell.html "lang".toList
          (head.language.getD RenderStep.defaultLanguage))) fun _ => True :=
      render (Frame.preserves_setAttribute fun same => absurd same (by decide))
    have mounted : Preserves (origin.Within (frame.around shell))
        (RenderStep.edit (roots.forM fun root => Edit.appendChild shell.body root)) fun _ => True := by
      refine render (Preserves.given fun document fits => Preserves.loop fun root member => ?_)
      have remains := fits.shell shell known
      apply Frame.preserves_appendChild fun _ => Or.inr (Frame.Fits.isPart_body known)
      intro other otherKnown
      cases otherKnown
      exact ⟨remains.body_ne_html, fun same => absurd same remains.body_ne_head,
        fun _ => fits.user_ne_body (users root member) known⟩
    exact language.andThen fun _ => (buildHead known head).andThen fun _ =>
      mounted.andThen fun _ => Preserves.result rfl
  have rest : Meets (origin.Within frame) (do
      let shell ← RenderStep.resetShell
      RenderStep.edit (Edit.setAttribute shell.html "lang".toList
        (head.language.getD RenderStep.defaultLanguage))
      RenderStep.buildHead shell.head head
      RenderStep.edit (roots.forM fun root => Edit.appendChild shell.body root)
      return shell)
      (fun shell => origin.Within (frame.around shell))
      (fun engine => ∃ shell, origin.Within { frame with shell } engine) := by
    refine (resetShell.weaken (fun _ start => start) (fun _ _ ends => ends) unchanged).bind fun shell => ?_
    refine Meets.weaken (filled shell) (fun _ start => start) ?_ (stopped shell)
    rintro result last ⟨within, rfl⟩
    exact within
  intro engine within
  rw [RenderStep.prepare, bind_of_ok (get_run engine)]
  dsimp only
  cases RenderStep.mountProblem engine.document (engine.shell.map Shell.body) [] roots with
  | some problem => exact unchanged engine within
  | none => exact rest engine within

/-! ## Finishing the page -/

theorem composeScript :
    Preserves (origin.Within frame) RenderStep.composeScript fun _ => True := by
  intro engine within
  obtain ⟨journal, run⟩ := RenderStep.composeScript_run engine
  rw [run]
  exact ⟨{ within with }, trivial⟩

/-- The client script is the one thing that the last part of a render puts into the body. -/
theorem finish :
    Meets (origin.Within (frame.around shell)) (RenderStep.finish shell)
      (fun _ engine => ∃ shell, origin.Within (frame.around shell) engine)
      (origin.Within (frame.around shell)) := by
  have known : (frame.around shell).shell = some shell := rfl
  refine composeScript.meets_bind fun source _ => ?_
  refine (render (Frame.preserves_createElement "script".toList)).meets_bind fun script loose => ?_
  refine (fill loose source).meets_bind fun _ _ => ?_
  have appended : Meets (frame.around shell).Fits (Edit.appendChild shell.body script)
      (fun _ document => (frame.around shell).Fits document ∧ script < document.slots.size)
      (frame.around shell).Fits := by
    intro document fits
    refine Frame.meets_appendChild (fun kept => absurd kept loose) ?_ document fits
    intro other otherKnown
    cases otherKnown
    refine ⟨(fits.shell shell known).body_ne_html,
      fun same => absurd same (fits.shell shell known).body_ne_head, fun _ same => loose ?_⟩
    rw [same]
    exact Or.inr (Frame.Fits.isPart_body known)
  refine (meets_edit appended).bind fun _ => ?_
  rintro engine ⟨within, inside⟩
  have scripted : ((frame.around shell).around { shell with script := some script }).Fits
      engine.document := by
    apply within.fits.rescripted known
    rintro id same
    cases same
    exact ⟨inside, loose⟩
  exact ⟨{ shell with script := some script }, { within.around scripted with }⟩

/-- A render stays within its frame, but for the elements around the roots that it makes. -/
theorem compile {roots : List NodeId} (users : ∀ root ∈ roots, frame.users root) (head : HeadConfig) :
    Meets (origin.Within frame) (RenderStep.compile roots head)
      (fun _ engine => ∃ shell, origin.Within { frame with shell } engine)
      (fun engine => ∃ shell, origin.Within { frame with shell } engine) := by
  rw [RenderStep.compile_eq_prepare]
  refine (prepare users head).bind fun shell => ?_
  apply finish.weaken fun _ start => start
  · rintro page last ⟨other, within⟩
    exact ⟨some other, within⟩
  · exact fun last within => ⟨some shell, within⟩

end Engine.Within

namespace Engine

variable {engine : Engine} {users : NodeId → Prop} {mount : List Element} {head : HeadConfig}

/-- A render advances an engine, whether it succeeds or fails. -/
theorem Guards.tryRender (guards : engine.Guards users)
    (given : ∀ root ∈ mount, engine.owns root = true → users root.node) (head : HeadConfig) :
    engine.Advances users (Action.leaves (Action.tryRender mount head) engine) users := by
  rw [Action.leaves, Action.tryRender]
  cases foreign : mount.find? fun root => !engine.owns root with
  | some root => exact guards.advances_self
  | none =>
    have own : ∀ root ∈ mount, engine.owns root = true := by
      simpa using foreign
    have roots : ∀ root ∈ mount.map Element.node, users root := by
      rw [List.forall_mem_map]
      exact fun root member => given root member (own root member)
    have meets := @Within.compile engine (engine.frame users) _ roots head
    have start : engine.Within (engine.frame users) { engine with phase := .compiling } :=
      { guards.within with }
    have finished {after : Engine} {shell : Option Shell}
        (within : engine.Within { engine.frame users with shell } after) (buffers : Buffers) (phase : Phase)
        (lastRendered : Option Text) (journal : List Event) :
        engine.Advances users { after with buffers, phase, lastRendered, journal } users :=
      Within.advances { within with } guards rfl rfl
    dsimp only
    cases run : RenderStep.compile (mount.map Element.node) head { engine with phase := .compiling } with
    | ok page after =>
      obtain ⟨shell, within⟩ := meets.ok start run
      exact finished within _ _ _ _
    | error cause after =>
      obtain ⟨shell, within⟩ := meets.error start run
      exact finished within _ _ _ _

theorem Guards.render (guards : engine.Guards users)
    (given : ∀ root ∈ mount, engine.owns root = true → users root.node) (head : HeadConfig) :
    engine.Advances users (Action.leaves (Action.render mount head) engine) users := by
  have tried := guards.tryRender given head
  rw [Action.leaves] at tried ⊢
  rw [Action.render]
  cases run : Action.tryRender mount head engine with
  | ok page after =>
    rw [run] at tried
    exact tried
  | error cause after =>
    rw [run] at tried
    exact { tried with guards := { tried.guards with } }

end Engine

end PageCompiler
