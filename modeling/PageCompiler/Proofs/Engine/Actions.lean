import PageCompiler.Proofs.Engine.Mirrors

/-!
# Actions on elements of alike engines

Each action on elements mirrors itself when it is applied to paired elements. Together with the pairs
of every user node with itself, this also says that each action keeps an engine sound.
-/

namespace PageCompiler

open Markup Steps

/-- Paired nodes as results. -/
def Paired (pairs : NodeId → NodeId → Prop) (left right : NodeId) : Prop :=
  pairs left right

/-- Results that are both missing or both there. -/
def SamePresence {α : Type} (_ : NodeId → NodeId → Prop) (value other : Option α) : Prop :=
  (value = none ∧ other = none) ∨ ∃ found otherFound, value = some found ∧ other = some otherFound

/-- Items to append that agree: elements that agree, paired nodes or one text. -/
inductive Item.Agree (uid : Nat) (pairs : NodeId → NodeId → Prop) : Item → Item → Prop where
  | element {element other : Element} (agree : element.Agree uid pairs other) :
      Item.Agree uid pairs (.element element) (.element other)
  | node {left right : NodeId} (pair : pairs left right) :
      Item.Agree uid pairs (.node left) (.node right)
  | text (content : Text) : Item.Agree uid pairs (.text content) (.text content)

theorem Item.Agree.widen {uid : Nat} {pairs wider : NodeId → NodeId → Prop} {item other : Item}
    (widens : pairs ≤ wider) (agree : Item.Agree uid pairs item other) :
    Item.Agree uid wider item other := by
  cases agree with
  | element agree => exact .element (agree.widen widens)
  | node pair => exact .node (widens _ _ pair)
  | text content => exact .text content

namespace Mirrors

variable {uid : Nat} {pairs : NodeId → NodeId → Prop}

/-! ## Data of elements -/

section Data

variable {left right : NodeId}

theorem updateElement (pair : pairs left right) {change : ElementData → ElementData}
    (sameTag : ∀ data, (change data).tag = data.tag)
    (formed : ∀ data : ElementData, data.WellFormed → (change data).WellFormed) :
    Mirrors uid pairs Same (Action.edit (Edit.updateElement left change))
      (Action.edit (Edit.updateElement right change)) := by
  intro wider widens first second alike
  have pair := widens _ _ pair
  cases found : first.document.element? left with
  | none =>
    have otherFound := (alike.element? pair).symm.trans found
    exact EndAlike.edit_of_error (Edit.updateElement_run_missing found change)
      (Edit.updateElement_run_missing otherFound change) (le_refl _) alike
  | some data =>
    have otherFound := (alike.element? pair).symm.trans found
    have formedData := formed data (alike.soundFirst.document.data found)
    exact EndAlike.edit_of_ok (Edit.updateElement_run found change)
      (Edit.updateElement_run otherFound change) (le_refl _)
      (alike.withData pair found (sameTag data) formedData) rfl

theorem setAttribute (pair : pairs left right) (name value : Text) :
    Mirrors uid pairs Same (Action.edit (Edit.setAttribute left name value))
      (Action.edit (Edit.setAttribute right name value)) := by
  by_cases valid : isAttributeName name = true
  · rw [Edit.setAttribute, Edit.setAttribute, if_pos valid, if_pos valid]
    apply updateElement pair
    · exact fun data => ElementData.tag_setAttribute _ value
    · exact fun data formed => formed.setAttribute valid value
  · intro wider widens first second alike
    exact EndAlike.edit_of_error (Edit.setAttribute_run_invalid valid left value)
      (Edit.setAttribute_run_invalid valid right value) (le_refl _) alike

theorem addClassNames (pair : pairs left right) (names : Text) :
    Mirrors uid pairs Same (Action.edit (Edit.addClasses left names))
      (Action.edit (Edit.addClasses right names)) := by
  apply updateElement pair
  · exact fun data => ElementData.tag_addClasses names
  · exact fun data formed => formed.addClasses names

theorem setStyle (pair : pairs left right) (property value : Text) :
    Mirrors uid pairs Same (Action.edit (Edit.setStyle left property value))
      (Action.edit (Edit.setStyle right property value)) := by
  apply updateElement pair
  · exact fun data => ElementData.tag_setStyle property value
  · exact fun data formed => formed.setStyle property value

end Data

section Elements

variable {element other : Element}

theorem setInlineStyle (pair : pairs element.node other.node) (declarations : Declarations) :
    Mirrors uid pairs Same (Action.setInlineStyle element declarations)
      (Action.setInlineStyle other declarations) := by
  rw [Action.setInlineStyle, Action.setInlineStyle, Action.edit, Action.edit, Engine.edit_forM,
    Engine.edit_forM]
  apply loop_same
  intro wider widens declaration
  exact setStyle (widens _ _ pair) _ _

theorem addClasses (pair : pairs element.node other.node) (classes : List Text) :
    Mirrors uid pairs Same (Action.addClasses element classes) (Action.addClasses other classes) := by
  rw [Action.addClasses, Action.addClasses, Action.edit, Action.edit, Engine.edit_forM,
    Engine.edit_forM]
  apply loop_same
  intro wider widens names
  exact addClassNames (widens _ _ pair) names

theorem setText (pair : pairs element.node other.node) (content : Text) :
    Mirrors uid pairs Same (Action.setText element content) (Action.setText other content) := by
  intro wider widens first second alike
  have pair := widens _ _ pair
  cases kind : first.document.kind? element.node with
  | none =>
    have missing := Document.kind?_eq_none_iff.mp kind
    have otherMissing := Document.kind?_eq_none_iff.mp ((alike.kinds pair).symm.trans kind)
    exact EndAlike.edit_of_error (Edit.setTextContent_run_missing missing content)
      (Edit.setTextContent_run_missing otherMissing content) (le_refl _) alike
  | some kindFound =>
    cases kindFound with
    | text old =>
      have text := Document.isText_iff_kind?.mpr ⟨old, kind⟩
      have otherText := (alike.isText pair).symm.trans text
      exact EndAlike.edit_of_ok (Edit.setTextContent_run_text text content)
        (Edit.setTextContent_run_text otherText content) (le_refl _)
        (alike.withText pair text content) rfl
    | element data =>
      have found := Document.element?_eq_some_iff_kind?.mpr kind
      have otherFound := (alike.element? pair).symm.trans found
      by_cases void : isVoidElement data.tag = true
      · have run := Edit.setTextContent_run_void alike.soundFirst.document.forest found void content
        have otherRun :=
          Edit.setTextContent_run_void alike.soundSecond.document.forest otherFound void content
        by_cases empty : content.isEmpty
        · rw [if_pos empty] at run otherRun
          exact EndAlike.edit_of_ok run otherRun (le_refl _) alike rfl
        · rw [if_neg empty] at run otherRun
          exact EndAlike.edit_of_error run otherRun Alike.le_withNext (alike.pushed (by simp))
      · have host : first.document.MayHost element.node := ⟨data, found, by simpa using void⟩
        have otherHost : second.document.MayHost other.node :=
          Document.mayHost_of_element?_eq (alike.element? pair).symm host
        obtain ⟨widest, further, alikeAfter⟩ := alike.filled pair host content
        exact EndAlike.edit_of_ok
          (Edit.setTextContent_run alike.soundFirst.document.forest host content)
          (Edit.setTextContent_run alike.soundSecond.document.forest otherHost content)
          further alikeAfter rfl

/-! ## Identifiers and buffers -/

theorem attribute?_eq {first second : Engine} (alike : Alike uid pairs first second)
    {left right : NodeId} (pair : pairs left right) (name : Text) :
    first.document.attribute? left name = second.document.attribute? right name := by
  rw [Document.attribute?, Document.attribute?, alike.element? pair]

theorem setId (pair : pairs element.node other.node) (id : Text) :
    Mirrors uid pairs Same (Action.setId element id) (Action.setId other id) := by
  apply state.bind
  intro wider widens first second alike
  have pair := widens _ _ pair
  have sameHooked : first.hooked.contains element.node = second.hooked.contains other.node := by
    rw [Bool.eq_iff_iff, List.contains_iff_mem, List.contains_iff_mem]
    exact alike.hooked pair
  dsimp only
  rw [attribute?_eq alike pair, sameHooked]
  split
  · exact failure _ _
  · exact setAttribute pair _ id

theorem setAttributeOf (pair : pairs element.node other.node) (name value : Text) :
    Mirrors uid pairs Same (Action.setAttribute element name value)
      (Action.setAttribute other name value) := by
  rw [Action.setAttribute, Action.setAttribute]
  split
  · exact setId pair value
  · exact setAttribute pair name value

/-- An element counts as hooked from now on. -/
theorem hook {left right : NodeId} (pair : pairs left right) (id : Text) :
    Mirrors uid pairs Same
      (do
        modify fun engine =>
          if engine.hooked.contains left then engine else { engine with hooked := left :: engine.hooked }
        return id : Action Text)
      (do
        modify fun engine =>
          if engine.hooked.contains right then engine else { engine with hooked := right :: engine.hooked }
        return id) := by
  apply (update _).andThen fun _ _ => result fun _ _ => rfl
  intro wider widens first second alike
  exact alike.withHooked (widens _ _ pair)

theorem ensureIdentifier {left right : NodeId} (pair : pairs left right) :
    Mirrors uid pairs Same (Action.ensureIdentifier left) (Action.ensureIdentifier right) := by
  unfold Action.ensureIdentifier
  apply state.bind
  intro wider widens first second alike
  have pair := widens _ _ pair
  rw [attribute?_eq alike pair, alike.ids]
  dsimp only
  split
  · exact hook pair _
  · apply (allocate second.ids.element.2).andThen
    intro widest further
    apply (setAttribute (further _ _ pair) _ _).andThen
    intro last furthest
    exact hook (furthest _ _ (further _ _ pair)) _

end Elements

/-- A change to the buffers mirrors itself if it lets no rule in that could end a stylesheet. -/
theorem updateBuffers {ε : Type} (wrap : ε → Error) {change : Buffers → Except ε Buffers}
    (free : ∀ buffers changed, change buffers = .ok changed →
      (∀ rule ∈ buffers.styles, '<' ∉ rule.text) → ∀ rule ∈ changed.styles, '<' ∉ rule.text) :
    Mirrors uid pairs Same (Action.updateBuffers wrap change) (Action.updateBuffers wrap change) := by
  apply state.bind
  intro wider widens first second alike
  rw [alike.buffers]
  cases run : change second.buffers with
  | error cause => exact failure _ _
  | ok buffers => exact collect (free _ _ run alike.soundSecond.styles)

theorem restyle {styles : Stylesheet} (free : ∀ rule ∈ styles, '<' ∉ rule.text) :
    Mirrors uid pairs Same (modify fun engine => { engine with buffers.styles := styles } : Action PUnit)
      (modify fun engine => { engine with buffers.styles := styles }) := by
  apply update
  intro wider widens first second alike
  rw [alike.buffers]
  exact alike.withBuffers free

/-- A change to the recorded behavior keeps the styles. -/
theorem updateBehaviors (record : BehaviorLog → Except HandlerError BehaviorLog) :
    Mirrors uid pairs Same
      (Action.updateBuffers .invalidHandler fun buffers =>
        (record buffers.behaviors).map fun behaviors => { buffers with behaviors })
      (Action.updateBuffers .invalidHandler fun buffers =>
        (record buffers.behaviors).map fun behaviors => { buffers with behaviors }) := by
  apply updateBuffers
  intro buffers changed run free
  cases recorded : record buffers.behaviors with
  | error cause =>
    rw [recorded] at run
    cases run
  | ok behaviors =>
    rw [recorded] at run
    cases run
    exact free

theorem checkHandler (handler : Handler) :
    Mirrors uid pairs Same (Action.checkHandler handler) (Action.checkHandler handler) := by
  rw [Action.checkHandler]
  split
  · exact done
  · exact failure _ _

section Hooks

variable {element other : Element}

theorem bindText (pair : pairs element.node other.node) (key : Text) (transform : Option Handler) :
    Mirrors uid pairs Same (Action.bindText element key transform)
      (Action.bindText other key transform) := by
  have checked : Mirrors uid pairs Same (transform.forM Action.checkHandler)
      (transform.forM Action.checkHandler) := by
    cases transform with
    | none => exact done
    | some handler => exact checkHandler handler
  apply checked.andThen
  intro wider widens
  apply (ensureIdentifier (widens _ _ pair)).bind
  rintro widest further id otherId rfl
  exact updateBehaviors fun log => log.recordStateWatch key id transform

theorem registerReference (pair : pairs element.node other.node) (name : Text) :
    Mirrors uid pairs Same (Action.registerReference element name)
      (Action.registerReference other name) := by
  apply (ensureIdentifier pair).bind
  rintro wider widens id otherId rfl
  apply update
  intro widest further first second alike
  rw [alike.buffers]
  exact alike.withBuffers alike.soundSecond.styles

theorem on (pair : pairs element.node other.node) (event : Text) (handler : Handler) :
    Mirrors uid pairs Same (Action.on element event handler) (Action.on other event handler) := by
  apply (checkHandler handler).andThen
  intro wider widens
  apply (ensureIdentifier (widens _ _ pair)).bind
  rintro widest further id otherId rfl
  exact updateBehaviors fun log => log.recordEvent id event handler

theorem generateScopedClass (pair : pairs element.node other.node) (declarations : Declarations) :
    Mirrors uid pairs Same (Action.generateScopedClass element declarations)
      (Action.generateScopedClass other declarations) := by
  apply state.bind
  intro wider widens first second alike
  rw [alike.ids]
  generalize second.ids.className = issued
  obtain ⟨name, ids⟩ := issued
  apply (allocate ids).andThen
  intro widest further
  apply state.bind
  intro last furthest third fourth alikeAfter
  rw [alikeAfter.buffers]
  cases run : fourth.buffers.styles.define name declarations false with
  | error cause => exact report _ _
  | ok styles =>
    apply (restyle (Stylesheet.no_delimiter_of_define alikeAfter.soundSecond.styles run)).andThen
    intro all added
    exact addClassNames (added _ _ (furthest _ _ (further _ _ (widens _ _ pair)))) name

end Hooks

/-! ## Actions on the engine alone -/

theorem tryDefineStyle (name : Text) (declarations : Declarations) (raw : Bool) :
    Mirrors uid pairs Same (Action.tryDefineStyle name declarations raw)
      (Action.tryDefineStyle name declarations raw) := by
  apply updateBuffers
  intro buffers changed run free
  cases defined : buffers.styles.define name declarations raw with
  | error cause =>
    rw [defined] at run
    cases run
  | ok styles =>
    rw [defined] at run
    cases run
    exact Stylesheet.no_delimiter_of_define free defined

theorem defineStyle (name : Text) (declarations : Declarations) (raw : Bool) :
    Mirrors uid pairs Same (Action.defineStyle name declarations raw)
      (Action.defineStyle name declarations raw) := by
  apply state.bind
  intro wider widens first second alike
  rw [alike.buffers]
  cases run : second.buffers.styles.define name declarations raw with
  | error cause => exact (report _ _).andThen fun _ _ => result fun _ _ => rfl
  | ok styles =>
    have free := Stylesheet.no_delimiter_of_define alike.soundSecond.styles run
    exact (restyle free).andThen fun _ _ => result fun _ _ => rfl

theorem setState (key : Text) (value : Json.Value) :
    Mirrors uid pairs Same (Action.setState key value) (Action.setState key value) := by
  apply state.bind
  intro wider widens first second alike
  rw [alike.buffers]
  generalize second.buffers.state.set key value = stored
  obtain ⟨table, changed⟩ := stored
  apply (update _).andThen fun _ _ => result fun _ _ => rfl
  intro widest further third fourth alikeAfter
  rw [alikeAfter.buffers]
  exact alikeAfter.withBuffers alikeAfter.soundSecond.styles

theorem onLoad (handler : Handler) :
    Mirrors uid pairs Same (Action.onLoad handler) (Action.onLoad handler) :=
  updateBehaviors fun log => log.recordLifecycle handler

theorem output : Mirrors uid pairs Same Action.output Action.output := by
  apply state.bind
  intro wider widens first second alike
  rw [alike.lastRendered]
  cases second.lastRendered with
  | none => exact failure _ _
  | some page => exact result fun _ _ => rfl

theorem trySave (files : FileTree) (here : List Text) (path : Path) :
    Mirrors uid pairs Same (Action.trySave files here path) (Action.trySave files here path) := by
  apply output.bind
  rintro wider widens page otherPage rfl
  cases files.write here path page with
  | error cause => exact failure _ _
  | ok written => exact (report _ _).andThen fun _ _ => result fun _ _ => rfl

theorem save (files : FileTree) (here : List Text) (path : Path) :
    Mirrors uid pairs Same (Action.save files here path) (Action.save files here path) := by
  intro wider widens first second alike
  have ends := trySave files here path wider widens first second alike
  rw [Action.save, Action.save]
  generalize Action.trySave files here path first = run at ends
  generalize Action.trySave files here path second = otherRun at ends
  cases run with
  | ok written after =>
    cases otherRun with
    | ok otherWritten otherAfter =>
      obtain ⟨widest, further, alikeAfter, same⟩ := ends
      exact ⟨widest, further, alikeAfter, congrArg some same⟩
    | error _ _ => exact ends.elim
  | error cause after =>
    cases otherRun with
    | ok _ _ => exact ends.elim
    | error otherCause otherAfter =>
      obtain ⟨widest, further, alikeAfter⟩ := ends
      exact ⟨widest, further, alikeAfter.withJournals _ _, rfl⟩

end Mirrors

end PageCompiler
