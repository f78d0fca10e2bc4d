import PageCompiler.Proofs.Engine.Collecting
import PageCompiler.Proofs.Engine.Frames

/-!
# Actions within frames

Actions on elements of users keep what is watched of the document of their engine, whatever is appended:
all of them but hooks leave the identifiers of hooked elements alone, and a hook gives an identifier only
to an element that has none.
-/

namespace PageCompiler

open Markup Steps

/-- An engine that has been come to from another one while a frame is watched: its document fits, and
the elements around the roots are those of the frame. -/
structure Engine.Within (origin : Engine) (frame : Frame) (engine : Engine) : Prop where
  fits : frame.Fits engine.document
  shell : engine.shell = frame.shell
  hooked : engine.hooked = origin.hooked
  uid : engine.uid = origin.uid
  locked : ∀ id name, frame.names id = some name → id ∈ engine.hooked

namespace Frame.Fits

variable {frame : Frame} {document : Document} {shell : Shell} {id : NodeId}

theorem user_ne_html (fits : frame.Fits document) (user : frame.users id)
    (known : frame.shell = some shell) : id ≠ shell.html :=
  fun same => (fits.users id user).2 ⟨shell, known, Or.inl same⟩

theorem user_ne_head (fits : frame.Fits document) (user : frame.users id)
    (known : frame.shell = some shell) : id ≠ shell.head :=
  fun same => (fits.users id user).2 ⟨shell, known, Or.inr (Or.inl same)⟩

theorem user_ne_body (fits : frame.Fits document) (user : frame.users id)
    (known : frame.shell = some shell) : id ≠ shell.body :=
  fun same => (fits.users id user).2 ⟨shell, known, Or.inr (Or.inr same)⟩

end Frame.Fits

/-- Anything may be put below the element of a user while the body is not watched. -/
theorem Frame.preserves_append {frame : Frame} {host : NodeId} (user : frame.users host)
    (unwatched : ¬ frame.whole) (child : NodeId) :
    Preserves frame.Fits (Edit.appendChild host child) fun _ => True :=
  Preserves.given fun _ fits => preserves_appendChild (fun _ => Or.inl user) fun _ known =>
    ⟨fits.user_ne_html user known, fun same => absurd same (fits.user_ne_head user known),
      fun watched => absurd watched unwatched⟩

namespace Engine.Within

variable {origin : Engine} {frame : Frame} {α : Type}

/-- Edits at an engine lead to what they lead to at its document. -/
theorem meets_edit {ε : Type} {wrap : DomError → ε} {change : Edit α} {after : α → Document → Prop}
    (meets : Meets frame.Fits change (fun value document => frame.Fits document ∧ after value document)
      frame.Fits) :
    Meets (origin.Within frame) (Engine.edit wrap change)
      (fun value engine => origin.Within frame engine ∧ after value engine.document)
      (origin.Within frame) := by
  intro engine within
  rw [Engine.edit]
  cases run : change engine.document with
  | ok value document =>
    obtain ⟨fits, holds⟩ := meets.ok within.fits run
    exact ⟨{ within with fits }, holds⟩
  | error cause document => exact { within with fits := meets.error within.fits run }

theorem edit {ε : Type} {wrap : DomError → ε} {change : Edit α} {holds : α → Prop}
    (kept : Preserves frame.Fits change holds) :
    Preserves (origin.Within frame) (Engine.edit wrap change) holds :=
  meets_edit kept

theorem action {change : Edit α} {holds : α → Prop} (kept : Preserves frame.Fits change holds) :
    Preserves (origin.Within frame) (Action.edit change) holds :=
  edit kept

theorem attempt {change : Edit α} {holds : α → Prop} (kept : Preserves frame.Fits change holds) :
    Preserves (origin.Within frame) (Action.attempt change) fun _ => True := by
  intro engine within
  rw [Action.attempt]
  cases run : change engine.document with
  | ok value document => exact ⟨{ within with fits := (kept.ok within.fits run).1 }, trivial⟩
  | error cause document => exact ⟨{ within with fits := kept.error within.fits run }, trivial⟩

/-- What is neither a document nor elements around the roots may change. -/
theorem report (event : Event) :
    Preserves (origin.Within frame) (Action.report event) fun _ => True :=
  Preserves.update fun _ within => { within with }

theorem updateBuffers {ε : Type} (wrap : ε → Error) (change : Buffers → Except ε Buffers) :
    Preserves (origin.Within frame) (Action.updateBuffers wrap change) fun _ => True := by
  refine Preserves.state.andThen fun engine => ?_
  split
  · exact Preserves.update fun _ within => { within with }
  · exact Preserves.failure _

/-! ## Changes of elements -/

section Changes

variable {element : Element}

/-- The identifier of a hooked element is only written as it is. -/
theorem setId (id : Text) :
    Preserves (origin.Within frame) (Action.setId element id) fun _ => True := by
  refine Preserves.state.bind fun engine within => ?_
  dsimp only
  split
  · exact Preserves.failure _
  · next accepted =>
    refine edit (Frame.preserves_setAttribute fun _ kept known => ?_)
    have hooked := List.contains_iff_mem.mpr (within.locked _ _ known)
    rw [(within.fits.names _ _ known).2, Option.getD_some, hooked, Bool.true_and, bne_iff_ne,
      not_not] at accepted
    exact accepted.symm

theorem setAttribute (name value : Text) :
    Preserves (origin.Within frame) (Action.setAttribute element name value) fun _ => True := by
  rw [Action.setAttribute]
  split
  · exact setId value
  · next other => exact edit (Frame.preserves_setAttribute fun same => absurd same other)

theorem setText (user : frame.users element.node) (content : Text) :
    Preserves (origin.Within frame) (Action.setText element content) fun _ => True :=
  edit (Preserves.given fun _ fits =>
    Frame.preserves_setTextContent content fun _ known => fits.user_ne_html user known)

theorem setInlineStyle (declarations : Declarations) :
    Preserves (origin.Within frame) (Action.setInlineStyle element declarations) fun _ => True :=
  edit (Preserves.loop fun _ _ => Frame.preserves_setStyle _ _ _)

theorem addClasses (classes : List Text) :
    Preserves (origin.Within frame) (Action.addClasses element classes) fun _ => True :=
  edit (Preserves.loop fun _ _ => Frame.preserves_addClasses _ _)

theorem generateScopedClass (declarations : Declarations) :
    Preserves (origin.Within frame) (Action.generateScopedClass element declarations) fun _ => True := by
  refine Preserves.state.andThen fun engine => ?_
  refine (Preserves.update fun _ within => { within with }).andThen fun _ => ?_
  refine Preserves.state.andThen fun engine => ?_
  split
  · refine (Preserves.update fun _ within => { within with }).andThen fun _ => ?_
    exact edit (Frame.preserves_addClasses _ _)
  · exact report _

end Changes

/-! ## Appending -/

section Appending

variable {host : Element} (user : frame.users host.node) (unwatched : ¬ frame.whole)

include user unwatched

theorem attach (item : Item) :
    Preserves (origin.Within frame) (Action.attach host item) fun _ => True := by
  have appended (child : NodeId) : Preserves (origin.Within frame)
      (Action.attempt (Edit.appendChild host.node child)) fun _ => True :=
    attempt (Frame.preserves_append user unwatched child)
  cases item with
  | element element =>
    refine Preserves.state.andThen fun engine => ?_
    split
    · refine (appended _).andThen fun outcome => ?_
      split <;> exact Preserves.result trivial
    · exact Preserves.result trivial
  | node id =>
    refine (appended _).andThen fun outcome => ?_
    split <;> exact Preserves.result trivial
  | text content =>
    have created : Preserves (origin.Within frame) (Action.createText content)
        fun id => ¬ frame.IsKept id := action (Frame.preserves_createText content)
    refine created.bind fun node loose => ?_
    refine (appended _).andThen fun outcome => ?_
    split
    · exact Preserves.result trivial
    · exact (attempt (Frame.preserves_remove loose)).andThen fun _ => Preserves.result trivial

theorem appendItem (item : Item) :
    Preserves (origin.Within frame) (Action.appendItem host item) fun _ => True := by
  refine (attach user unwatched item).andThen fun problem => ?_
  split
  · exact Preserves.result trivial
  · refine Preserves.state.andThen fun engine => ?_
    split
    · exact Preserves.failure _
    · exact report _

theorem appendChildren (children : List Child) :
    Preserves (origin.Within frame) (Action.appendChildren host children) fun _ => True :=
  Preserves.loop fun item _ => appendItem user unwatched item

end Appending

/-! ## Actions on the engine alone -/

theorem defineStyle (name : Text) (declarations : Declarations) (raw : Bool) :
    Preserves (origin.Within frame) (Action.defineStyle name declarations raw) fun _ => True := by
  refine Preserves.state.andThen fun engine => ?_
  split
  · exact (Preserves.update fun _ within => { within with }).andThen fun _ => Preserves.result trivial
  · exact (report _).andThen fun _ => Preserves.result trivial

theorem setState (key : Text) (value : Json.Value) :
    Preserves (origin.Within frame) (Action.setState key value) fun _ => True := by
  refine Preserves.state.andThen fun engine => ?_
  exact (Preserves.update fun _ within => { within with }).andThen fun _ => Preserves.result trivial

theorem output : Preserves (origin.Within frame) Action.output fun _ => True := by
  refine Preserves.state.andThen fun engine => ?_
  split
  · exact Preserves.result trivial
  · exact Preserves.failure _

theorem trySave (files : FileTree) (here : List Text) (path : Path) :
    Preserves (origin.Within frame) (Action.trySave files here path) fun _ => True := by
  refine output.andThen fun page => ?_
  split
  · exact (report _).andThen fun _ => Preserves.result trivial
  · exact Preserves.failure _

theorem save (files : FileTree) (here : List Text) (path : Path) :
    Preserves (origin.Within frame) (Action.save files here path) fun _ => True := by
  intro engine within
  rw [Action.save]
  cases run : Action.trySave files here path engine with
  | ok value after => exact ⟨((trySave files here path).ok within run).1, trivial⟩
  | error cause after => exact ⟨{ (trySave files here path).error within run with }, trivial⟩

end Engine.Within

/-! ## What is guarded -/

namespace Identifier

theorem freshToken_ne_nil (issued : List Text) (number attempts : Nat) (stream : Random.Stream) :
    (freshToken issued number attempts stream).1 ≠ [] := by
  induction attempts generalizing stream with
  | zero => simp [freshToken, spareToken]
  | succ attempts ih =>
    rw [freshToken]
    dsimp only
    split
    · exact ih _
    · simp

/-- Identifiers that are issued are not empty. -/
theorem element_ne_nil (allocator : Allocator) : allocator.element.1 ≠ [] := by
  rw [Allocator.element, Series.next.eq_def]
  generalize redrawLimit = attempts
  cases allocator.strategy with
  | sequential => simp
  | random => exact freshToken_ne_nil _ _ _ _

end Identifier

namespace Engine

variable {engine after last : Engine} {users wider widest : NodeId → Prop} {node : NodeId}

/-- What is watched of an engine for its users: their elements, and the identifiers of hooked ones. -/
def frame (engine : Engine) (users : NodeId → Prop) : Frame where
  users := users
  names id := if id ∈ engine.hooked then engine.namedId? id else none
  shell := engine.shell
  whole := False
  lost := False

/-- An engine whose document fits its frame, and whose hooked elements are elements of users that have
an identifier. -/
structure Guards (engine : Engine) (users : NodeId → Prop) : Prop where
  fits : (engine.frame users).Fits engine.document
  hooked : ∀ id ∈ engine.hooked, users id ∧ (engine.namedId? id).isSome

/-- What an engine comes to without losing an element of a user or changing the identifier of a hooked
one. -/
structure Advances (engine : Engine) (users : NodeId → Prop) (after : Engine) (wider : NodeId → Prop) :
    Prop where
  guards : after.Guards wider
  uid : after.uid = engine.uid
  users : ∀ id, users id → wider id
  hooked : ∀ id ∈ engine.hooked, id ∈ after.hooked ∧ after.namedId? id = engine.namedId? id

theorem Guards.advances_self (guards : engine.Guards users) : engine.Advances users engine users where
  guards := guards
  uid := rfl
  users _ user := user
  hooked _ member := ⟨member, rfl⟩

theorem Advances.trans (first : engine.Advances users after wider)
    (second : after.Advances wider last widest) : engine.Advances users last widest where
  guards := second.guards
  uid := second.uid.trans first.uid
  users id user := second.users id (first.users id user)
  hooked id member := by
    obtain ⟨still, same⟩ := first.hooked id member
    obtain ⟨later, sameLater⟩ := second.hooked id still
    exact ⟨later, sameLater.trans same⟩

theorem namedId?_eq_some_iff {id : Text} :
    engine.namedId? node = some id ↔
      engine.document.attribute? node "id".toList = some id ∧ id ≠ [] := by
  rw [namedId?]
  split
  · next first rest found =>
    rw [found]
    constructor
    · intro same
      cases same
      exact ⟨rfl, by simp⟩
    · exact And.left
  · next other =>
    refine iff_of_false (by simp) ?_
    rintro ⟨found, named⟩
    cases id with
    | nil => exact named rfl
    | cons first rest => exact other first rest found

theorem Guards.within (guards : engine.Guards users) : engine.Within (engine.frame users) engine where
  fits := guards.fits
  shell := rfl
  hooked := rfl
  uid := rfl
  locked id name known := by
    rw [frame] at known
    dsimp only at known
    split at known
    · assumption
    · cases known

/-- The shell and the elements of users decide whether a document fits, once identifiers are known to
be where they should be. -/
theorem guards_of_fits {frame : Frame} (fits : frame.Fits engine.document)
    (sameUsers : frame.users = users) (sameShell : engine.shell = frame.shell)
    (hooked : ∀ id ∈ engine.hooked, users id ∧ (engine.namedId? id).isSome) : engine.Guards users := by
  subst sameUsers
  refine ⟨?_, hooked⟩
  have sameKept (id : NodeId) : (engine.frame frame.users).IsKept id ↔ frame.IsKept id := by
    rw [Frame.IsKept, Frame.IsKept, Frame.IsPart, Frame.IsPart, Engine.frame, sameShell]
  constructor
  · exact fits.sound
  · intro id user
    refine ⟨(fits.users id user).1, fun part => (fits.users id user).2 ?_⟩
    rwa [Frame.IsPart, Engine.frame, sameShell] at part
  · intro id name known
    rw [Engine.frame] at known
    dsimp only at known
    split at known
    · next member => exact ⟨(hooked id member).1, (namedId?_eq_some_iff.mp known).1⟩
    · cases known
  · intro child parent step kept
    exact (sameKept parent).mpr (fits.hosts child parent step ((sameKept child).mp kept))
  · intro shell known
    have remains := fits.shell shell (sameShell ▸ known)
    exact { remains with
      inHead := fun child step kept => remains.inHead child step ((sameKept child).mp kept)
      script := fun script scriptKnown =>
        ⟨(remains.script script scriptKnown).1,
          fun kept => (remains.script script scriptKnown).2 ((sameKept script).mp kept)⟩
      whole := False.elim }
  · exact False.elim

/-- What is come to within the frame of an engine, whatever the elements around the roots are then, is an
advance. -/
theorem Within.advances {frame : Frame} (within : engine.Within frame after)
    (guards : engine.Guards users) (sameUsers : frame.users = users)
    (sameNames : frame.names = (engine.frame users).names) : engine.Advances users after users := by
  have same : ∀ id ∈ engine.hooked, after.namedId? id = engine.namedId? id := by
    intro id member
    obtain ⟨name, named⟩ := Option.isSome_iff_exists.mp (guards.hooked id member).2
    have known : frame.names id = some name := by
      rw [sameNames]
      exact (if_pos member).trans named
    rw [named]
    exact namedId?_eq_some_iff.mpr
      ⟨(within.fits.names id name known).2, (namedId?_eq_some_iff.mp named).2⟩
  constructor
  · apply guards_of_fits within.fits sameUsers within.shell
    intro id member
    rw [within.hooked] at member
    rw [same id member]
    exact guards.hooked id member
  · exact within.uid
  · exact fun _ user => user
  · intro id member
    rw [within.hooked]
    exact ⟨member, same id member⟩

/-- An action that stays within the frame of an engine advances it. -/
theorem Guards.advances {α : Type} {holds : α → Prop} (guards : engine.Guards users)
    {action : Action α} (kept : Preserves (engine.Within (engine.frame users)) action holds) :
    engine.Advances users (Action.leaves action engine) users := by
  rw [Action.leaves]
  cases run : action engine with
  | ok value after => exact (kept.ok guards.within run).1.advances guards rfl rfl
  | error cause after => exact (kept.error guards.within run).advances guards rfl rfl

/-! ## Hooks -/

theorem Guards.live (guards : engine.Guards users) (user : users node) :
    (engine.document.element? node).isSome :=
  (guards.fits.users node user).1

theorem namedId?_withHook (id : NodeId) : (engine.withHook node).namedId? id = engine.namedId? id := by
  rw [namedId?, namedId?, document_withHook]

theorem mem_hooked_withHook_iff {id : NodeId} :
    id ∈ (engine.withHook node).hooked ↔ id = node ∨ id ∈ engine.hooked := by
  rw [withHook]
  split
  · next known =>
    have member := List.contains_iff_mem.mp known
    exact ⟨Or.inr, fun either => either.elim (fun same => same ▸ member) fun old => old⟩
  · exact List.mem_cons

theorem Guards.withHook (guards : engine.Guards users) (user : users node)
    (named : (engine.namedId? node).isSome) : engine.Advances users (engine.withHook node) users where
  guards := by
    have fits : (engine.frame users).Fits (engine.withHook node).document := by
      rw [document_withHook]
      exact guards.fits
    apply guards_of_fits fits rfl
    · rw [Engine.withHook]
      split <;> rfl
    · intro id member
      rw [namedId?_withHook]
      rcases mem_hooked_withHook_iff.mp member with rfl | old
      · exact ⟨user, named⟩
      · exact guards.hooked id old
  uid := by
    rw [Engine.withHook]
    split <;> rfl
  users _ user := user
  hooked id member := ⟨mem_hooked_withHook_iff.mpr (Or.inr member), namedId?_withHook id⟩

theorem attribute?_withNewId {data : ElementData} (found : engine.document.element? node = some data)
    (id : NodeId) : (engine.withNewId node).document.attribute? id "id".toList =
      if id = node then some engine.ids.element.1 else engine.document.attribute? id "id".toList := by
  split
  · next same =>
    subst same
    have written : (engine.withNewId id).document.element? id =
        some (data.setAttribute "id".toList engine.ids.element.1) := by
      rw [Document.element?_eq_some_iff_kind?, withNewId, Document.kind?_withData found, if_pos rfl]
    rw [Document.attribute?, written]
    exact Entries.get?_put_self _ _ _
  · next other =>
    apply Document.attribute?_congr
    rw [withNewId, Document.kind?_withData found, if_neg other]

/-- An element without an identifier is given one. -/
theorem Guards.withNewId (guards : engine.Guards users) (user : users node)
    (unnamed : engine.namedId? node = none) :
    engine.Advances users (engine.withNewId node) users ∧
      ((engine.withNewId node).namedId? node).isSome := by
  obtain ⟨data, found⟩ := Option.isSome_iff_exists.mp (guards.live user)
  have unhooked : node ∉ engine.hooked := by
    intro member
    have named := (guards.hooked node member).2
    rw [unnamed] at named
    cases named
  have same (id : NodeId) (other : id ≠ node) :
      (engine.withNewId node).namedId? id = engine.namedId? id := by
    rw [namedId?, namedId?, attribute?_withNewId found, if_neg other]
  have fits : (engine.frame users).Fits (engine.withNewId node).document := by
    apply guards.fits.withData found (ElementData.tag_setAttribute _ _)
    · have valid : isAttributeName "id".toList = true := by decide
      exact (guards.fits.sound.data found).setAttribute valid _
    · intro name known
      exact absurd ((guards.within).locked node name known) unhooked
  refine ⟨⟨guards_of_fits fits rfl rfl ?_, rfl, fun _ user => user, ?_⟩, ?_⟩
  · intro id member
    rw [same id (by rintro rfl; exact unhooked member)]
    exact guards.hooked id member
  · intro id member
    exact ⟨member, same id (by rintro rfl; exact unhooked member)⟩
  · rw [namedId?_eq_some_iff.mpr ⟨(attribute?_withNewId found node).trans (if_pos rfl),
      Identifier.element_ne_nil _⟩]
    rfl

theorem Guards.identified (guards : engine.Guards users) (user : users node) :
    engine.Advances users (engine.identified node) users := by
  rw [Engine.identified]
  cases named : engine.namedId? node with
  | some id => exact guards.withHook user (Option.isSome_of_eq_some named)
  | none =>
    obtain ⟨advances, namedNow⟩ := guards.withNewId user named
    exact advances.trans (advances.guards.withHook user namedNow)

/-- A hook advances an engine, whether it succeeds or fails. -/
theorem Guards.hook (guards : engine.Guards users) {element : Element} (user : users element.node)
    {hook : Change} (hooks : hook.NeedsIdentifier) :
    engine.Advances users (Action.leaves (hook.action element) engine) users := by
  have checked (handler : Handler) : Preserves (fun after => engine.Advances users after users)
      (Action.checkHandler handler) fun _ => True := by
    rw [Action.checkHandler]
    split
    · exact Preserves.result trivial
    · exact Preserves.failure _
  have identified : Preserves (fun after => engine.Advances users after users)
      (Action.ensureIdentifier element.node) fun _ => True := by
    intro after advances
    rw [Action.ensureIdentifier_run (advances.guards.live user)]
    exact ⟨advances.trans (advances.guards.identified user), trivial⟩
  have collected (buffers : Buffers) (after : Engine) (advances : engine.Advances users after users) :
      engine.Advances users { after with buffers } users :=
    { advances with guards := { advances.guards with } }
  have recorded {ε : Type} (wrap : ε → Error) (change : Buffers → Except ε Buffers) :
      Preserves (fun after => engine.Advances users after users) (Action.updateBuffers wrap change)
        fun _ => True := by
    refine Preserves.state.andThen fun after => ?_
    split
    · exact Preserves.update fun after => collected _ after
    · exact Preserves.failure _
  have kept : Preserves (fun after => engine.Advances users after users) (hook.action element)
      fun _ => True := by
    cases hook with
    | bindText key transform =>
      exact (Preserves.optional fun handler _ => checked handler).andThen fun _ =>
        identified.andThen fun _ => recorded _ _
    | registerReference name =>
      exact identified.andThen fun _ => Preserves.update fun after => collected _ after
    | on event handler => exact (checked handler).andThen fun _ => identified.andThen fun _ => recorded _ _
    | _ => exact hooks.elim
  rw [Action.leaves]
  cases run : hook.action element engine with
  | ok value after => exact (kept.ok guards.advances_self run).1
  | error cause after => exact kept.error guards.advances_self run

/-! ## New elements -/

/-- The elements of users and a further one. -/
def withUser (users : NodeId → Prop) (node : NodeId) : NodeId → Prop :=
  fun id => users id ∨ id = node

/-- A new element is one of a user, though it may still be removed. -/
theorem Guards.createElement (guards : engine.Guards users) (tag : Text) :
    Meets (fun state => state = engine) (Action.createElement tag)
      (fun element after => element.owner = engine.uid ∧
        engine.Advances users after (withUser users element.node) ∧
        engine.Within (engine.frame users) after ∧ ¬ (engine.frame users).IsKept element.node)
      (fun after => engine.Advances users after users) := by
  intro state same
  obtain rfl : engine = state := same.symm
  by_cases valid : isTagName tag = true
  · let document := engine.document.push { kind := .element { tag := Text.lowered tag } }
    have created : Action.edit (Edit.createElement tag) engine = .ok engine.document.slots.size
        { engine with document } := by
      rw [Action.edit, Engine.edit, Edit.createElement_run valid]
    have formed : ElementData.WellFormed { tag := Text.lowered tag } := ElementData.wellFormed_new valid
    have named (id : NodeId) (member : id ∈ engine.hooked) :
        Engine.namedId? { engine with document } id = engine.namedId? id := by
      have inside := guards.fits.lt_size_of_kept (Or.inl (guards.hooked id member).1)
      have same : document.attribute? id "id".toList = engine.document.attribute? id "id".toList := by
        apply Document.attribute?_congr
        rw [Document.kind?_push, if_neg (Nat.ne_of_lt inside)]
      rw [namedId?, namedId?, same]
    have wider : Engine.Guards { engine with document } (withUser users engine.document.slots.size) := by
      refine guards_of_fits (guards.fits.admitted formed) rfl rfl ?_
      intro id member
      rw [named id member]
      exact ⟨Or.inl (guards.hooked id member).1, (guards.hooked id member).2⟩
    have within : engine.Within (engine.frame users) { engine with document } := by
      refine { guards.within with fits := guards.fits.pushed _ ?_ }
      rintro data found
      cases found
      exact formed
    rw [Action.createElement, bind_of_ok created, bind_of_ok (get_run _)]
    exact ⟨rfl, ⟨wider, rfl, fun _ => Or.inl, fun id member => ⟨member, named id member⟩⟩, within,
      guards.fits.not_kept_size⟩
  · have refused : Action.edit (Edit.createElement tag) engine =
        .error (.elementCreation (.invalidTagName tag)) engine := by
      rw [Action.edit, Engine.edit, Edit.createElement_run_invalid valid]
    rw [Action.createElement, bind_of_error refused]
    exact guards.advances_self

/-- A child that cannot be appended is removed again, so it is no element of a user. -/
theorem Guards.createChild (guards : engine.Guards users) {host : Element} (user : users host.node)
    (tag : Text) :
    Meets (fun state => state = engine) (Action.createChild host tag)
      (fun element after => element.owner = engine.uid ∧
        engine.Advances users after (withUser users element.node))
      (fun after => engine.Advances users after users) := by
  refine (guards.createElement tag).bind fun element => ?_
  rintro created ⟨owner, advances, within, loose⟩
  have appends {frame : Frame} (userStill : frame.users host.node) (unwatched : ¬ frame.whole) :
      Preserves frame.Fits (Edit.appendChild host.node element.node) fun _ => True :=
    Frame.preserves_append userStill unwatched element.node
  rw [bind_run, Action.attempt]
  cases run : Edit.appendChild host.node element.node created.document with
  | ok value document =>
    have fits := ((appends (Or.inl user) not_false).ok advances.guards.fits run).1
    exact ⟨owner, advances.trans
      (Within.advances { advances.guards.within with fits } advances.guards rfl rfl)⟩
  | error cause document =>
    have tried : engine.Within (engine.frame users) { created with document } :=
      { within with fits := (appends user not_false).error within.fits run }
    have dropped : Preserves (engine.Within (engine.frame users))
        (Action.attempt (Edit.remove element.node) >>= fun _ => throw (.elementCreation cause) :
          Action Element) fun _ => False :=
      (Within.attempt (Frame.preserves_remove loose)).andThen fun _ => Preserves.failure _
    exact Meets.weaken dropped (fun _ start => start) (fun _ _ ends => ends.2.elim)
      (fun _ ends => ends.advances guards rfl rfl) _ tried

end Engine

end PageCompiler
