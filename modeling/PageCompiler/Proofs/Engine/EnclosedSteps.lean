import PageCompiler.Proofs.Engine.Enclosing
import PageCompiler.Proofs.Engine.Wiring

/-!
# Steps around a whole page

Actions on elements of users, and renders, keep the elements around the roots in one piece. A render that
finds them so puts its roots, and nothing else but the client script, into the body.
-/

namespace PageCompiler

open Markup Steps

/-- An engine that has been come to from another one, with the elements around the roots in one piece. -/
structure Engine.Encloses (origin : Engine) (enclosure : Enclosure) (engine : Engine) : Prop where
  fits : enclosure.Fits engine.document
  shell : engine.shell = enclosure.shell
  uid : engine.uid = origin.uid

namespace Engine.Encloses

variable {origin : Engine} {enclosure : Enclosure} {α : Type}

/-- Edits at an engine lead to what they lead to at its document. -/
theorem meets_edit {ε : Type} {wrap : DomError → ε} {change : Edit α} {later failed : Enclosure}
    {after : α → Document → Prop} (same : later.shell = enclosure.shell)
    (sameFailed : failed.shell = enclosure.shell)
    (meets : Meets enclosure.Fits change (fun value document => later.Fits document ∧ after value document)
      failed.Fits) :
    Meets (origin.Encloses enclosure) (Engine.edit wrap change)
      (fun value engine => origin.Encloses later engine ∧ after value engine.document)
      (origin.Encloses failed) := by
  intro engine encloses
  rw [Engine.edit]
  cases run : change engine.document with
  | ok value document =>
    obtain ⟨fits, known⟩ := meets.ok encloses.fits run
    exact ⟨⟨fits, encloses.shell.trans same.symm, encloses.uid⟩, known⟩
  | error cause document =>
    exact ⟨meets.error encloses.fits run, encloses.shell.trans sameFailed.symm, encloses.uid⟩

theorem edit {ε : Type} {wrap : DomError → ε} {change : Edit α} {holds : α → Prop}
    (kept : Preserves enclosure.Fits change holds) :
    Preserves (origin.Encloses enclosure) (Engine.edit wrap change) holds :=
  meets_edit rfl rfl kept

theorem action {change : Edit α} {holds : α → Prop} (kept : Preserves enclosure.Fits change holds) :
    Preserves (origin.Encloses enclosure) (Action.edit change) holds :=
  edit kept

theorem attempt {change : Edit α} {holds : α → Prop} (kept : Preserves enclosure.Fits change holds) :
    Preserves (origin.Encloses enclosure) (Action.attempt change) fun _ => True := by
  intro engine encloses
  rw [Action.attempt]
  cases run : change engine.document with
  | ok value document => exact ⟨{ encloses with fits := (kept.ok encloses.fits run).1 }, trivial⟩
  | error cause document => exact ⟨{ encloses with fits := kept.error encloses.fits run }, trivial⟩

theorem report (event : Event) :
    Preserves (origin.Encloses enclosure) (Action.report event) fun _ => True :=
  Preserves.update fun _ encloses => { encloses with }

theorem updateBuffers {ε : Type} (wrap : ε → Error) (change : Buffers → Except ε Buffers) :
    Preserves (origin.Encloses enclosure) (Action.updateBuffers wrap change) fun _ => True := by
  refine Preserves.state.andThen fun engine => ?_
  split
  · exact Preserves.update fun _ encloses => { encloses with }
  · exact Preserves.failure _

theorem createElement (tag : Text) :
    Preserves (origin.Encloses enclosure) (Action.createElement tag)
      fun element => ¬ enclosure.IsPart element.node := by
  exact (action (Enclosure.preserves_createElement tag)).bind fun node loose =>
    Preserves.state.andThen fun engine => Preserves.result loose

section Changes

variable {element : Element} (apart : ¬ enclosure.IsPart element.node)

include apart

theorem setAttribute (name value : Text) : Preserves (origin.Encloses enclosure)
    (Action.edit (Edit.setAttribute element.node name value)) fun _ => True :=
  edit (Enclosure.preserves_setAttribute apart name value)

theorem setId (id : Text) :
    Preserves (origin.Encloses enclosure) (Action.setId element id) fun _ => True := by
  refine Preserves.state.andThen fun engine => ?_
  dsimp only
  split
  · exact Preserves.failure _
  · exact setAttribute apart _ _

theorem addClasses (names : Text) : Preserves (origin.Encloses enclosure)
    (Action.edit (Edit.addClasses element.node names)) fun _ => True :=
  edit (Enclosure.preserves_addClasses apart names)

theorem generateScopedClass (declarations : Declarations) :
    Preserves (origin.Encloses enclosure) (Action.generateScopedClass element declarations)
      fun _ => True := by
  refine Preserves.state.andThen fun engine => ?_
  refine (Preserves.update fun _ encloses => { encloses with }).andThen fun _ => ?_
  refine Preserves.state.andThen fun engine => ?_
  split
  · refine (Preserves.update fun _ encloses => { encloses with }).andThen fun _ => ?_
    exact addClasses apart _
  · exact report _

theorem ensureIdentifier :
    Preserves (origin.Encloses enclosure) (Action.ensureIdentifier element.node) fun _ => True := by
  have hooked (id : Text) : Preserves (origin.Encloses enclosure) (do
      modify fun engine =>
        if engine.hooked.contains element.node then engine
        else { engine with hooked := element.node :: engine.hooked }
      return id : Action Text) fun _ => True := by
    refine (Preserves.update fun engine encloses => ?_).andThen fun _ => Preserves.result trivial
    split
    · exact encloses
    · exact { encloses with }
  refine Preserves.state.andThen fun engine => ?_
  split
  · exact hooked _
  · exact (Preserves.update fun _ encloses => { encloses with }).andThen fun _ =>
      (setAttribute apart _ _).andThen fun _ => hooked _

/-- Whatever is done to an element that is not around the roots leaves these in one piece. -/
theorem change (what : Change) :
    Preserves (origin.Encloses enclosure) (what.action element) fun _ => True := by
  have checked (handler : Handler) :
      Preserves (origin.Encloses enclosure) (Action.checkHandler handler) fun _ => True := by
    rw [Action.checkHandler]
    split
    · exact Preserves.result trivial
    · exact Preserves.failure _
  cases what with
  | setId id => exact setId apart id
  | setText content => exact edit (Enclosure.preserves_setTextContent apart content)
  | setAttribute name value =>
    exact Preserves.branch (fun _ => setId apart value) fun _ => setAttribute apart name value
  | setInlineStyle declarations =>
    exact edit (Preserves.loop fun _ _ => Enclosure.preserves_setStyle apart _ _)
  | addClasses classes => exact edit (Preserves.loop fun _ _ => Enclosure.preserves_addClasses apart _)
  | generateScopedClass declarations => exact generateScopedClass apart declarations
  | bindText key transform =>
    exact (Preserves.optional fun handler _ => checked handler).andThen fun _ =>
      (ensureIdentifier apart).andThen fun _ => updateBuffers _ _
  | registerReference name =>
    exact (ensureIdentifier apart).andThen fun _ => Preserves.update fun _ encloses => { encloses with }
  | on event handler =>
    exact (checked handler).andThen fun _ => (ensureIdentifier apart).andThen fun _ => updateBuffers _ _

end Changes

/-! ## Appending -/

section Appending

variable {host : Element} (apart : ¬ enclosure.IsPart host.node)

include apart

theorem append {child : NodeId} (loose : ¬ enclosure.IsPart child) :
    Preserves (origin.Encloses enclosure) (Action.attempt (Edit.appendChild host.node child))
      fun _ => True := by
  apply attempt (Enclosure.preserves_appendChild _ loose)
  intro shell known
  constructor
  · exact fun same => apart (same ▸ Enclosure.isPart_html known)
  · exact fun _ same => apart (same ▸ Enclosure.isPart_body known)

theorem createChild (tag : Text) :
    Preserves (origin.Encloses enclosure) (Action.createChild host tag) fun _ => True := by
  refine (createElement tag).bind fun element loose => ?_
  refine (append apart loose).andThen fun outcome => ?_
  split
  · exact Preserves.result trivial
  · exact (attempt (Enclosure.preserves_remove loose)).andThen fun _ => Preserves.failure _

/-- An item that names no element around the roots may be appended. -/
theorem appendItem {item : Item}
    (elements : ∀ element, item = .element element → element.owner = origin.uid →
      ¬ enclosure.IsPart element.node)
    (nodes : ∀ id, item = .node id → ¬ enclosure.IsPart id) :
    Preserves (origin.Encloses enclosure) (Action.appendItem host item) fun _ => True := by
  have attached : Preserves (origin.Encloses enclosure) (Action.attach host item) fun _ => True := by
    cases item with
    | element element =>
      refine Preserves.state.bind fun engine encloses => ?_
      refine Preserves.branch (fun own => ?_) fun _ => Preserves.result trivial
      have loose := elements element rfl ((of_decide_eq_true own).trans encloses.uid)
      refine (append apart loose).andThen fun outcome => ?_
      split <;> exact Preserves.result trivial
    | node id =>
      refine (append apart (nodes id rfl)).andThen fun outcome => ?_
      split <;> exact Preserves.result trivial
    | text content =>
      have created : Preserves (origin.Encloses enclosure) (Action.createText content)
          fun id => ¬ enclosure.IsPart id := action (Enclosure.preserves_createText content)
      refine created.bind fun node loose => (append apart loose).andThen fun outcome => ?_
      split
      · exact Preserves.result trivial
      · exact (attempt (Enclosure.preserves_remove loose)).andThen fun _ => Preserves.result trivial
  refine attached.andThen fun problem => ?_
  split
  · exact Preserves.result trivial
  · refine Preserves.state.andThen fun engine => ?_
    split
    · exact Preserves.failure _
    · exact report _

end Appending

/-! ## Commands -/

theorem use {held : Held} {place : Nat} {action : Element → Action Reply}
    (kept : ∀ element ∈ held.elements, element.owner = origin.uid →
      Preserves (origin.Encloses enclosure) (action element) fun _ => True) :
    Preserves (origin.Encloses enclosure) (held.use place action) fun _ => True := by
  refine Preserves.state.bind fun engine encloses => ?_
  split
  · next element found =>
    refine Preserves.branch (fun own => ?_) fun _ => Preserves.result trivial
    exact kept element (List.mem_of_getElem? found) ((of_decide_eq_true own).trans encloses.uid)
  · exact Preserves.result trivial

theorem defineStyle (name : Text) (declarations : Declarations) (raw : Bool) :
    Preserves (origin.Encloses enclosure) (Action.defineStyle name declarations raw) fun _ => True := by
  refine Preserves.state.andThen fun engine => ?_
  split
  · exact (Preserves.update fun _ encloses => { encloses with }).andThen fun _ => Preserves.result trivial
  · exact (report _).andThen fun _ => Preserves.result trivial

theorem setState (key : Text) (value : Json.Value) :
    Preserves (origin.Encloses enclosure) (Action.setState key value) fun _ => True := by
  refine Preserves.state.andThen fun engine => ?_
  exact (Preserves.update fun _ encloses => { encloses with }).andThen fun _ => Preserves.result trivial

theorem output : Preserves (origin.Encloses enclosure) Action.output fun _ => True := by
  refine Preserves.state.andThen fun engine => ?_
  split
  · exact Preserves.result trivial
  · exact Preserves.failure _

theorem trySave (files : FileTree) (here : List Text) (path : Path) :
    Preserves (origin.Encloses enclosure) (Action.trySave files here path) fun _ => True := by
  refine output.andThen fun page => ?_
  split
  · exact (report _).andThen fun _ => Preserves.result trivial
  · exact Preserves.failure _

theorem save (files : FileTree) (here : List Text) (path : Path) :
    Preserves (origin.Encloses enclosure) (Action.save files here path) fun _ => True := by
  intro engine encloses
  rw [Action.save]
  cases run : Action.trySave files here path engine with
  | ok value after => exact ⟨((trySave files here path).ok encloses run).1, trivial⟩
  | error cause after => exact ⟨{ (trySave files here path).error encloses run with }, trivial⟩

/-- Every command but one that appends or renders leaves the elements around the roots in one piece. -/
theorem command {held : Held} (users : ∀ element ∈ held.elements, element.owner = origin.uid →
      ¬ enclosure.IsPart element.node) {command : Command}
    (appends : ∀ host pieces, command ≠ .append host pieces) (renders : ¬ command.IsRender) :
    Preserves (origin.Encloses enclosure) (command.action held) fun _ => True := by
  have asked (answer : Engine → Reply) : Preserves (origin.Encloses enclosure)
      (get >>= fun engine => pure (answer engine) : Action Reply) fun _ => True :=
    Preserves.state.andThen fun _ => Preserves.result trivial
  have replied {α : Type} (answer : α → Answer) {action : Action α}
      (kept : Preserves (origin.Encloses enclosure) action fun _ => True) :
      Preserves (origin.Encloses enclosure) (Reply.of answer action) fun _ => True :=
    kept.andThen fun _ => Preserves.result trivial
  cases command with
  | createElement tag => exact (createElement tag).andThen fun _ => Preserves.result trivial
  | createText content =>
    exact (action (Enclosure.preserves_createText content)).andThen fun _ => Preserves.result trivial
  | createChild host tag =>
    refine use fun element member own => ?_
    exact (createChild (users element member own) tag).andThen fun _ => Preserves.result trivial
  | change place what =>
    exact use fun element member own => replied _ (change (users element member own) what)
  | append host pieces => exact absurd rfl (appends host pieces)
  | node place => exact use fun element _ _ => Preserves.result trivial
  | child place index => exact use fun element _ _ => asked _
  | markup place => exact use fun element _ _ => asked _
  | attributeOf place name => exact use fun element _ _ => asked _
  | text place => exact use fun element _ _ => asked _
  | hasClass place name => exact use fun element _ _ => asked _
  | tryDefineStyle name declarations raw => exact replied _ (updateBuffers _ _)
  | defineStyle name declarations raw => exact replied _ (defineStyle name declarations raw)
  | setState key value => exact replied _ (setState key value)
  | onLoad handler => exact replied _ (updateBuffers _ _)
  | stateValue key => exact asked _
  | reference name => exact asked _
  | pending => exact asked _
  | phase => exact asked _
  | tryRender mount head => exact absurd trivial renders
  | render mount head => exact absurd trivial renders
  | output => exact replied _ output
  | trySave files here path => exact replied _ (trySave files here path)
  | save files here path => exact replied _ (save files here path)

/-! ## Renders -/

section Renders

variable {shell : Shell} {empty : Prop} {language : Option Text}

/-- What is in the body, and the language, need not be looked at. -/
theorem simply {engine : Engine} (encloses : origin.Encloses ⟨some shell, empty, language⟩ engine) :
    origin.Encloses { shell := some shell } engine where
  fits := ⟨encloses.fits.sound, encloses.fits.whole, False.elim, (fun _ none => nomatch none)⟩
  shell := encloses.shell
  uid := encloses.uid

theorem emptyPage
    (loose : ∀ script, shell.script = some script → ¬ Enclosure.IsPart { shell := some shell } script) :
    Meets (origin.Encloses { shell := some shell }) (RenderStep.emptyPage shell)
      (fun shell => origin.Encloses { shell := some shell, empty := True })
      (origin.Encloses { shell := some shell }) := by
  have headCleared : Preserves (Enclosure.Fits { shell := some shell }) (Edit.clearChildren shell.head)
      fun children => ∀ child ∈ children, ¬ Enclosure.IsPart { shell := some shell } child := by
    refine Preserves.weaken (Preserves.given fun document fits => Enclosure.preserves_clearChildren ?_)
      fun children loose => loose rfl
    rintro _ ⟨⟩
    exact ((fits.whole shell rfl).html_ne_head fits.sound.forest).symm
  have bodyCleared : Meets (Enclosure.Fits { shell := some shell }) (Edit.clearChildren shell.body)
      (fun _ document => Enclosure.Fits { shell := some shell, empty := True } document ∧ True)
      (Enclosure.Fits { shell := some shell }) := by
    intro document fits
    rw [Edit.clearChildren_run fits.sound.forest (fits.whole shell rfl).contains_body]
    exact ⟨fits.emptied, trivial⟩
  have ended : Meets (origin.Encloses { shell := some shell, empty := True }) (do
      modify fun engine => { engine with shell := some { shell with script := none } }
      return { shell with script := none } : RenderStep Shell)
      (fun shell => origin.Encloses { shell := some shell, empty := True })
      (origin.Encloses { shell := some shell, empty := True }) :=
    fun engine encloses => ⟨encloses.fits.rescripted none, rfl, encloses.uid⟩
  unfold RenderStep.emptyPage
  refine (edit headCleared).meets_bind fun former formerLoose => ?_
  refine (edit (Preserves.loop fun child listed =>
    Enclosure.preserves_remove (formerLoose child listed))).meets_bind fun _ _ => ?_
  refine (meets_edit (by rfl) (by rfl) bodyCleared).bind fun _ => ?_
  have weakened {step : RenderStep Shell} (meets : Meets
      (origin.Encloses { shell := some shell, empty := True }) step
      (fun shell => origin.Encloses { shell := some shell, empty := True })
      (origin.Encloses { shell := some shell, empty := True })) := meets.weaken
    (fun _ (start : origin.Encloses { shell := some shell, empty := True } _ ∧ True) => start.1)
    (fun _ _ ends => ends) fun _ => simply
  apply weakened
  cases known : shell.script with
  | none => exact ended
  | some script =>
    have removed : Preserves (origin.Encloses { shell := some shell, empty := True })
        (RenderStep.edit (Edit.remove script)) fun _ => True :=
      edit (Enclosure.preserves_remove (loose script known))
    exact removed.meets_bind fun _ _ => ended

/-- A render finds the elements around the roots in one piece or makes them, and then the body is empty. -/
theorem resetShell {given : Option Shell}
    (loose : ∀ shell, given = some shell → ∀ script, shell.script = some script →
      ¬ Enclosure.IsPart { shell := some shell } script) :
    Meets (origin.Encloses { shell := given }) RenderStep.resetShell
      (fun shell => origin.Encloses { shell := some shell, empty := True })
      (origin.Encloses { shell := given }) := by
  intro engine encloses
  cases given with
  | none =>
    have stands := Shell.stands_withShell encloses.fits.sound
    rw [Within.resetShell_run encloses.fits.sound encloses.shell]
    have fits : Enclosure.Fits { shell := some (Shell.next engine.document) } engine.document.withShell := by
      refine ⟨Document.Sound.withShell encloses.fits.sound, ?_, False.elim, (fun _ none => nomatch none)⟩
      rintro _ ⟨⟩
      exact stands
    refine ⟨Enclosure.Fits.emptied (fits.cleared ?_), rfl, encloses.uid⟩
    rintro _ ⟨⟩
    exact Nat.ne_of_gt (Nat.lt_succ_self _)
  | some shell =>
    rw [RenderStep.resetShell_eq, bind_of_ok (get_run engine), encloses.shell]
    exact emptyPage (loose shell rfl) engine encloses

section Parts

variable {shell : Shell} {language : Text}

/-- The page is given its language. -/
theorem writeLanguage (language : Text) :
    Meets (origin.Encloses { shell := some shell, empty := True })
      (RenderStep.edit (Edit.setAttribute shell.html "lang".toList language))
      (fun _ engine =>
        origin.Encloses { shell := some shell, empty := True, language := some language } engine ∧ True)
      (origin.Encloses { shell := some shell, empty := True }) := by
  have written : Meets (Enclosure.Fits { shell := some shell, empty := True })
      (Edit.setAttribute shell.html "lang".toList language)
      (fun _ document => Enclosure.Fits ⟨some shell, True, some language⟩ document ∧ True)
      (Enclosure.Fits { shell := some shell, empty := True }) := by
    intro document fits
    obtain ⟨attributes, found, _⟩ := (fits.whole shell rfl).html
    rw [Edit.setAttribute_run found (by decide)]
    exact ⟨fits.withLanguage found language, trivial⟩
  exact meets_edit (by rfl) (by rfl) written

/-- What is put into the head is next to the body. -/
theorem addToHead (tag : Text) (attributes : List (Text × Text)) :
    Preserves (origin.Encloses { shell := some shell, empty := True, language := some language })
      (RenderStep.addToHead shell.head tag attributes)
      fun node => ¬ Enclosure.IsPart ⟨some shell, True, some language⟩ node := by
  refine (edit (Enclosure.preserves_createElement tag)).bind fun node loose => ?_
  have appended : Preserves
      (Enclosure.Fits { shell := some shell, empty := True, language := some language })
      (Edit.appendChild shell.head node) fun _ => True := by
    refine Preserves.given fun document fits => Enclosure.preserves_appendChild ?_ loose
    rintro _ ⟨⟩
    have whole := fits.whole shell rfl
    exact ⟨(whole.html_ne_head fits.sound.forest).symm, fun _ => whole.head_ne_body⟩
  refine (edit appended).andThen fun _ => ?_
  refine (edit (Preserves.loop fun pair _ => Enclosure.preserves_setAttribute loose _ _)).andThen fun _ => ?_
  exact Preserves.result loose

theorem buildHead (head : HeadConfig) :
    Preserves (origin.Encloses { shell := some shell, empty := True, language := some language })
      (RenderStep.buildHead shell.head head) fun _ => True := by
  have each {α : Type} (values : List α) (tag : Text) (attributes : α → List (Text × Text)) :
      Preserves (origin.Encloses { shell := some shell, empty := True, language := some language })
        (values.forM fun value => do
          let _ ← RenderStep.addToHead shell.head tag (attributes value)) fun _ => True :=
    Preserves.loop fun value _ => (addToHead _ _).andThen fun _ => Preserves.result trivial
  have last : Preserves (origin.Encloses { shell := some shell, empty := True, language := some language })
      (do
        let style ← RenderStep.addToHead shell.head "style".toList []
        let css := (← get).buffers.styles.text
        modify fun engine => { engine with buffers.styles := [] }
        if !css.isEmpty then
          RenderStep.edit (Edit.setTextContent style css) : RenderStep Unit) fun _ => True := by
    refine (addToHead _ _).bind fun style loose => Preserves.state.andThen fun engine => ?_
    refine (Preserves.update fun _ encloses => { encloses with }).andThen fun _ => ?_
    exact Preserves.branch (fun _ => edit (Enclosure.preserves_setTextContent loose _))
      fun _ => Preserves.result trivial
  refine (addToHead _ _).andThen fun _ => ?_
  refine (addToHead _ _).bind fun title loose => Preserves.state.andThen fun engine => ?_
  refine (edit (Enclosure.preserves_setTextContent loose _)).andThen fun _ => ?_
  refine Preserves.guarded (addToHead _ _).forget ?_
  refine (each _ _ _).andThen fun _ => (each _ _ _).andThen fun _ => (each _ _ _).andThen fun _ => ?_
  split
  · exact (addToHead _ _).andThen fun _ => last
  · exact last

/-- The roots are put into the body one after another. -/
theorem mountAll {roots mounted : List NodeId}
    (apart : ∀ root ∈ roots, ¬ Enclosure.IsPart { shell := some shell } root)
    (distinct : (mounted ++ roots).Nodup) :
    Meets (fun document => Enclosure.Fits { shell := some shell, language := some language } document ∧
        document.children shell.body = mounted)
      (roots.forM fun root => Edit.appendChild shell.body root)
      (fun _ document => Enclosure.Fits { shell := some shell, language := some language } document ∧
        document.children shell.body = mounted ++ roots)
      (Enclosure.Fits { shell := some shell, language := some language }) := by
  rintro document ⟨fits, inBody⟩
  induction roots generalizing mounted document with
  | nil =>
    rw [forM_nil_run, List.append_nil]
    exact ⟨fits, inBody⟩
  | cons root rest ih =>
    have whole := fits.whole shell rfl
    have forest := fits.sound.forest
    rw [List.forall_mem_cons] at apart
    cases problem : Edit.appendProblem document shell.body root with
    | some cause =>
      rw [forM_cons_of_error root rest (Edit.appendChild_run_problem problem)]
      exact fits
    | none =>
      have new : root ∉ mounted := fun member =>
        (List.nodup_append.mp distinct).2.2 root member root List.mem_cons_self rfl
      rw [forM_cons_of_ok root rest (Edit.appendChild_run forest problem), List.append_cons]
      rw [List.append_cons] at distinct
      apply ih apart.2 distinct
      · apply fits.moved problem _ apart.1
        rintro _ ⟨⟩
        exact ⟨(whole.html_ne_body forest).symm, False.elim⟩
      · rw [Document.children_moved whole.contains_body, inBody, if_pos rfl, List.filter_eq_self.mpr]
        intro other member
        rw [bne_iff_ne]
        rintro rfl
        exact new member

/-- The roots are what is in the body when the page is prepared. -/
theorem mountRoots {roots : List NodeId}
    (apart : ∀ root ∈ roots, ¬ Enclosure.IsPart { shell := some shell } root) (distinct : roots.Nodup) :
    Meets (origin.Encloses { shell := some shell, empty := True, language := some language })
      (RenderStep.edit (roots.forM fun root => Edit.appendChild shell.body root))
      (fun _ engine => origin.Encloses { shell := some shell, language := some language } engine ∧
        engine.document.children shell.body = roots)
      (origin.Encloses { shell := some shell, language := some language }) := by
  have mounted : Meets (Enclosure.Fits { shell := some shell, empty := True, language := some language })
      (roots.forM fun root => Edit.appendChild shell.body root)
      (fun _ document => Enclosure.Fits { shell := some shell, language := some language } document ∧
        document.children shell.body = roots)
      (Enclosure.Fits { shell := some shell, language := some language }) := by
    refine (@mountAll shell language roots [] apart distinct).weaken ?_ (fun _ _ ends => ends)
      fun _ ends => ends
    exact fun document fits =>
      ⟨⟨fits.sound, fits.whole, False.elim, fits.language⟩, fits.empty trivial shell rfl⟩
  exact meets_edit (by rfl) (by rfl) mounted

/-- The script may be put anywhere but around the roots. -/
theorem finish : Meets (origin.Encloses { shell := some shell, language := some language })
    (RenderStep.finish shell) (fun _ engine => ∃ shell, origin.Encloses { shell := some shell } engine)
    (origin.Encloses { shell := some shell, language := some language }) := by
  have composed : Preserves (origin.Encloses { shell := some shell, language := some language })
      RenderStep.composeScript fun _ => True := by
    intro engine encloses
    obtain ⟨journal, run⟩ := RenderStep.composeScript_run engine
    rw [run]
    exact ⟨{ encloses with }, trivial⟩
  refine composed.meets_bind fun source _ => ?_
  refine (edit (Enclosure.preserves_createElement _)).meets_bind fun script loose => ?_
  refine (edit (Enclosure.preserves_setTextContent loose _)).meets_bind fun _ _ => ?_
  have appended : Preserves (Enclosure.Fits { shell := some shell, language := some language })
      (Edit.appendChild shell.body script) fun _ => True := by
    refine Preserves.given fun document fits => Enclosure.preserves_appendChild ?_ loose
    rintro _ ⟨⟩
    exact ⟨((fits.whole shell rfl).html_ne_body fits.sound.forest).symm, False.elim⟩
  refine (edit appended).meets_bind fun _ _ => ?_
  exact fun engine encloses =>
    ⟨{ shell with script := some script }, encloses.simply.fits.rescripted _, rfl, encloses.uid⟩

end Parts

end Renders

end Engine.Encloses

end PageCompiler
