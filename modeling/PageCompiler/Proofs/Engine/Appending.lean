import PageCompiler.Proofs.Engine.Wiring
import PageCompiler.Proofs.Markup.Gathering

/-!
# Appended items

What is appended to an element is a tree of children, and only the items in it count. Whether an item can
be appended is known before the first of them is: those that come before it neither help nor hinder it.
Under the strict policy the items before the first that cannot be appended are, under the lenient one all
that can be.
-/

namespace PageCompiler

open Markup Steps

/-! ## Items -/

/-- The child that is one item. -/
def Item.child : Item → Child
  | .element handle => .element handle
  | .node id => .node id
  | .text content => .text content

namespace Child

mutual

theorem text_ne_nil_of_items : ∀ (child : Child) {content : Text},
    .text content ∈ child.items → content ≠ []
  | .element _, _, member => by simp [items] at member
  | .node _, _, member => by simp [items] at member
  | .text content, other, member => by
    rw [items] at member
    split at member
    · cases member
    · next filled =>
      rw [List.mem_singleton, Item.text.injEq] at member
      rwa [member, Ne, ← List.isEmpty_iff]
  | .many children, _, member => by
    rw [items] at member
    exact text_ne_nil_of_itemsOfAll children member
  | .nothing, _, member => by simp [items] at member

theorem text_ne_nil_of_itemsOfAll : ∀ (children : List Child) {content : Text},
    .text content ∈ itemsOfAll children → content ≠ []
  | [], _, member => by simp [itemsOfAll] at member
  | child :: rest, _, member => by
    rw [itemsOfAll, List.mem_append] at member
    rcases member with first | later
    · exact text_ne_nil_of_items child first
    · exact text_ne_nil_of_itemsOfAll rest later

end

/-- Items are the items of the children that they are, unless there are empty texts among them. -/
theorem itemsOfAll_map_child {items : List Item}
    (filled : ∀ {content : Text}, .text content ∈ items → content ≠ []) :
    itemsOfAll (items.map Item.child) = items := by
  induction items with
  | nil => rfl
  | cons item rest ih =>
    have single : item.child.items = [item] := by
      cases item with
      | element element => rfl
      | node id => rfl
      | text content =>
        have some := filled List.mem_cons_self
        rw [Item.child, Child.items, if_neg (mt List.isEmpty_iff.mp some)]
    rw [List.map_cons, itemsOfAll, single, ih fun member => filled (List.mem_cons_of_mem _ member)]
    rfl

end Child

namespace Markup.Document

/-- Whether a node is an element that may have content. -/
def isHost (document : Document) (id : NodeId) : Bool :=
  match document.element? id with
  | some data => !isVoidElement data.tag
  | none => false

/-- Whether a node is there and can be put below an element. -/
def isMovable (document : Document) (host id : NodeId) : Bool :=
  document.isHost host && document.contains id && !document.isInclusiveAncestor id host

theorem isHost_iff {document : Document} {id : NodeId} : document.isHost id = true ↔ document.MayHost id := by
  rw [isHost, MayHost]
  cases document.element? id <;> simp

theorem isMovable_iff {document : Document} (forest : document.Forest) {host id : NodeId} :
    document.isMovable host id = true ↔ Edit.appendProblem document host id = none := by
  rw [Edit.appendProblem_eq_none_iff forest, isMovable, Bool.and_eq_true, Bool.and_eq_true, isHost_iff,
    Bool.not_eq_true', ← Bool.not_eq_true, forest.isInclusiveAncestor_iff, and_assoc]

end Markup.Document

namespace Item

/-- Whether an item can be appended to an element as an engine is now. -/
def isAttachable (engine : Engine) (host : NodeId) : Item → Bool
  | .element handle => engine.owns handle && engine.document.isMovable host handle.node
  | .node id => engine.document.isMovable host id
  | .text _ => engine.document.isHost host

/-- Whether the node that an item names, if it is one of the engine, was made there before. -/
def IsIssued (engine : Engine) : Item → Prop
  | .element handle => engine.owns handle = true → handle.node < engine.document.slots.size
  | .node id => id < engine.document.slots.size
  | .text _ => True

/-- Whether an item has become a node: the one it names, or a new text. -/
def Became (before after : Document) : Item → NodeId → Prop
  | .element handle, id => id = handle.node
  | .node named, id => id = named
  | .text content, id => before.slots.size ≤ id ∧ after.kind? id = some (.text content)

end Item

namespace Engine

variable {engine between after : Engine} {host : NodeId} {items more : List Item} {item : Item}

/-- What an engine comes to when items are appended to a host: its document has gathered the nodes of the
items there, and something may have been reported. -/
structure Attaches (engine : Engine) (host : NodeId) (items : List Item) (after : Engine) : Prop where
  rest : after = { engine with document := after.document, journal := after.journal }
  nodes : ∃ nodes, List.Forall₂ (Item.Became engine.document after.document) items nodes ∧
    engine.document.Gathers host nodes after.document

namespace Attaches

theorem forest (attaches : engine.Attaches host items after) : after.document.Forest := by
  obtain ⟨_, _, gathers⟩ := attaches.nodes
  exact gathers.forest

theorem size (attaches : engine.Attaches host items after) :
    engine.document.slots.size ≤ after.document.slots.size := by
  obtain ⟨_, _, gathers⟩ := attaches.nodes
  exact gathers.size

theorem owns (attaches : engine.Attaches host items after) (element : Element) :
    after.owns element = engine.owns element := by
  rw [attaches.rest, Engine.owns, Engine.owns]

theorem config (attaches : engine.Attaches host items after) : after.config = engine.config := by
  rw [attaches.rest]

/-- Whether an item can be appended is the same after others were. -/
theorem isAttachable (attaches : engine.Attaches host items after) (forest : engine.document.Forest)
    (issued : item.IsIssued engine) : item.isAttachable after host = item.isAttachable engine host := by
  obtain ⟨nodes, _, gathers⟩ := attaches.nodes
  have movable {id : NodeId} (inside : id < engine.document.slots.size) :
      after.document.isMovable host id = engine.document.isMovable host id := by
    rw [Bool.eq_iff_iff, Document.isMovable_iff gathers.forest, Document.isMovable_iff forest,
      gathers.appendProblem_iff forest inside]
  cases item with
  | element element =>
    rw [Item.isAttachable, Item.isAttachable, attaches.owns]
    cases own : engine.owns element with
    | false => rfl
    | true => rw [movable (issued own)]
  | node id => exact movable issued
  | text content =>
    rw [Item.isAttachable, Item.isAttachable, Bool.eq_iff_iff, Document.isHost_iff, Document.isHost_iff,
      gathers.mayHost_iff]

theorem report (attaches : engine.Attaches host items after) (event : Event) :
    engine.Attaches host items (after.report event) := by
  refine ⟨?_, attaches.nodes⟩
  rw [attaches.rest]
  rfl

/-- The items appended so far, with further ones. -/
theorem extended {document : Document} {added : List NodeId} (attaches : engine.Attaches host items between)
    (gathers : between.document.Gathers host added document)
    (became : List.Forall₂ (Item.Became engine.document document) more added)
    (placed : ∀ id ∈ added, id < engine.document.slots.size ∨ between.document.slots.size ≤ id) :
    engine.Attaches host (items ++ more) { between with document } := by
  obtain ⟨nodes, pairs, earlier⟩ := attaches.nodes
  have still : List.Forall₂ (Item.Became engine.document document) items nodes := by
    refine pairs.imp fun item id became => ?_
    cases item with
    | element element => exact became
    | node named => exact became
    | text content =>
      obtain ⟨new, kind⟩ := became
      obtain ⟨node, found, _⟩ := Option.map_eq_some_iff.mp kind
      exact ⟨new, (gathers.kinds id (Document.lt_size_of_node? found)).trans kind⟩
  refine ⟨?_, nodes ++ added, List.rel_append still became, earlier.trans gathers placed⟩
  rw [attaches.rest]

end Attaches

theorem attaches_nothing (forest : engine.document.Forest) (host : NodeId) :
    engine.Attaches host [] engine :=
  ⟨rfl, [], .nil, .none forest⟩

end Engine

/-! ## Runs -/

namespace Action

variable {engine current reached : Engine} {host : Element} {item : Item} {items taken : List Item}

/-- An item that can be appended is appended; any other leaves nothing behind. -/
theorem attach_outcome (forest : engine.document.Forest) (host : Element) (item : Item) :
    (item.isAttachable engine host.node = true ∧ ∃ id document,
      attach host item engine = .ok none { engine with document } ∧
        engine.document.Gathers host.node [id] document ∧ item.Became engine.document document id) ∨
    (item.isAttachable engine host.node = false ∧ ∃ cause document,
      attach host item engine = .ok (some cause) { engine with document } ∧
        engine.document.Gathers host.node [] document) := by
  have node (id : NodeId) :
      (engine.document.isMovable host.node id = true ∧ ∃ document,
        attach host (.node id) engine = .ok none { engine with document } ∧
          engine.document.Gathers host.node [id] document) ∨
      (engine.document.isMovable host.node id = false ∧ ∃ cause,
        attach host (.node id) engine = .ok (some cause) engine) := by
    cases problem : Edit.appendProblem engine.document host.node id with
    | none =>
      exact .inl ⟨(Document.isMovable_iff forest).mpr problem, _, attach_node_run_accepted forest problem,
        .moved forest problem⟩
    | some cause =>
      refine .inr ⟨?_, _, attach_node_run problem⟩
      rw [Bool.eq_false_iff, Ne, Document.isMovable_iff forest, problem]
      exact Option.some_ne_none cause
  cases item with
  | node id =>
    rcases node id with ⟨movable, document, run, gathers⟩ | ⟨fixed, cause, run⟩
    · exact .inl ⟨movable, id, document, run, gathers, rfl⟩
    · exact .inr ⟨fixed, cause, _, run, .none forest⟩
  | element element =>
    rw [Item.isAttachable]
    by_cases own : engine.owns element = true
    · rw [attach_element_run own, own, Bool.true_and]
      rcases node element.node with ⟨movable, document, run, gathers⟩ | ⟨fixed, cause, run⟩
      · exact .inl ⟨movable, element.node, document, run, gathers, rfl⟩
      · exact .inr ⟨fixed, cause, _, run, .none forest⟩
    · rw [attach_element_run_foreign own, Bool.eq_false_iff.mpr own]
      exact .inr ⟨rfl, _, _, rfl, .none forest⟩
  | text content =>
    by_cases mayHost : engine.document.MayHost host.node
    · refine .inl ⟨Document.isHost_iff.mpr mayHost, _, _, attach_text_run forest mayHost content,
        .grafted forest mayHost _, Nat.le_refl _, ?_⟩
      rw [Document.kind?_grafted, if_pos rfl]
    · obtain ⟨cause, run⟩ := attach_text_run_refused forest mayHost content
      exact .inr ⟨Bool.eq_false_iff.mpr (mt Document.isHost_iff.mp mayHost), _, _, run, .discarded forest _⟩

/-- One item after others: whether it is appended was known before them. -/
theorem attach_next (attaches : engine.Attaches host.node taken current) (forest : engine.document.Forest)
    (issued : item.IsIssued engine) :
    (item.isAttachable engine host.node = true ∧ ∃ after,
      attach host item current = .ok none after ∧ engine.Attaches host.node (taken ++ [item]) after) ∨
    (item.isAttachable engine host.node = false ∧ ∃ cause after,
      attach host item current = .ok (some cause) after ∧ engine.Attaches host.node taken after) := by
  have same := attaches.isAttachable forest issued
  rcases attach_outcome attaches.forest host item with
    ⟨attachable, id, document, run, gathers, became⟩ | ⟨refused, cause, document, run, gathers⟩
  · rw [same] at attachable
    have placed : id < engine.document.slots.size ∨ current.document.slots.size ≤ id := by
      cases item with
      | element element =>
        rw [Item.isAttachable, Bool.and_eq_true] at attachable
        cases became
        exact .inl (issued attachable.1)
      | node named =>
        cases became
        exact .inl issued
      | text content => exact .inr became.1
    have becameSince : item.Became engine.document document id := by
      cases item with
      | element element => exact became
      | node named => exact became
      | text content => exact ⟨attaches.size.trans became.1, became.2⟩
    refine .inl ⟨attachable, _, run, attaches.extended gathers (.cons becameSince .nil) ?_⟩
    intro other member
    rwa [List.mem_singleton.mp member]
  · rw [same] at refused
    have kept := attaches.extended gathers .nil (List.forall_mem_nil _)
    rw [List.append_nil] at kept
    exact .inr ⟨refused, cause, _, run, kept⟩

/-- Under the lenient policy every item that can be appended is, by induction on the items: those before
have been appended as far as they could be. -/
theorem appendItems_lenient (lenient : engine.config.append = .lenient)
    (attaches : engine.Attaches host.node taken current) (forest : engine.document.Forest)
    (issued : ∀ item ∈ items, item.IsIssued engine) :
    ∃ after, items.forM (appendItem host) current = .ok ⟨⟩ after ∧
      engine.Attaches host.node (taken ++ items.filter (Item.isAttachable engine host.node)) after := by
  induction items generalizing taken current with
  | nil =>
    rw [List.filter_nil, List.append_nil]
    exact ⟨current, rfl, attaches⟩
  | cons item rest ih =>
    rw [List.forall_mem_cons] at issued
    rcases attach_next attaches forest issued.1 with
      ⟨attachable, between, run, attached⟩ | ⟨refused, cause, between, run, attached⟩
    · obtain ⟨after, runs, all⟩ := ih attached issued.2
      refine ⟨after, ?_, ?_⟩
      · rw [forM_cons_of_ok item rest (appendItem_run_accepted run), runs]
      · rwa [List.filter_cons_of_pos attachable, List.append_cons]
    · have policy := (congrArg EngineConfig.append attached.config).trans lenient
      obtain ⟨after, runs, all⟩ := ih (attached.report (.childSkipped host.tag cause)) issued.2
      refine ⟨after, ?_, ?_⟩
      · rw [forM_cons_of_ok item rest (appendItem_run_lenient run policy), runs]
      · rwa [List.filter_cons_of_neg (Bool.eq_false_iff.mp refused)]

/-- Under the strict policy the items are appended up to the first that cannot be. -/
theorem appendItems_strict (strict : engine.config.append = .strict)
    (attaches : engine.Attaches host.node taken current) (forest : engine.document.Forest)
    (issued : ∀ item ∈ items, item.IsIssued engine) :
    ∃ after, engine.Attaches host.node
        (taken ++ items.takeWhile (Item.isAttachable engine host.node)) after ∧
      (((∀ item ∈ items, item.isAttachable engine host.node = true) ∧
          items.forM (appendItem host) current = .ok ⟨⟩ after) ∨
        ((∃ item ∈ items, item.isAttachable engine host.node = false) ∧
          ∃ cause, items.forM (appendItem host) current = .error (.invalidChild host.tag cause) after)) := by
  induction items generalizing taken current with
  | nil =>
    rw [List.takeWhile_nil, List.append_nil]
    exact ⟨current, attaches, .inl ⟨List.forall_mem_nil _, rfl⟩⟩
  | cons item rest ih =>
    rw [List.forall_mem_cons] at issued
    rcases attach_next attaches forest issued.1 with
      ⟨attachable, between, run, attached⟩ | ⟨refused, cause, between, run, attached⟩
    · obtain ⟨after, all, ends⟩ := ih attached issued.2
      rw [forM_cons_of_ok item rest (appendItem_run_accepted run), List.takeWhile_cons_of_pos attachable,
        List.append_cons, List.forall_mem_cons]
      refine ⟨after, all, ends.imp (fun ⟨fit, done⟩ => ⟨⟨attachable, fit⟩, done⟩) ?_⟩
      rintro ⟨⟨other, member, refused⟩, failed⟩
      exact ⟨⟨other, List.mem_cons_of_mem _ member, refused⟩, failed⟩
    · have policy := (congrArg EngineConfig.append attached.config).trans strict
      rw [forM_cons_of_error item rest (appendItem_run_strict run policy),
        List.takeWhile_cons_of_neg (Bool.eq_false_iff.mp refused), List.append_nil]
      exact ⟨between, attached, .inr ⟨⟨item, List.mem_cons_self, refused⟩, cause, rfl⟩⟩

/-- Whatever the policy, some items have been appended after a run that succeeds. -/
theorem exists_attaches (forest : engine.document.Forest) (issued : ∀ item ∈ items, item.IsIssued engine)
    (run : items.forM (appendItem host) engine = .ok ⟨⟩ reached) :
    ∃ taken, engine.Attaches host.node taken reached := by
  have start := Engine.attaches_nothing forest host.node
  cases policy : engine.config.append with
  | strict =>
    obtain ⟨after, attaches, ⟨_, ran⟩ | ⟨_, _, ran⟩⟩ := appendItems_strict policy start forest issued
    · rw [run] at ran
      cases ran
      exact ⟨_, attaches⟩
    · rw [run] at ran
      cases ran
  | lenient =>
    obtain ⟨after, ran, attaches⟩ := appendItems_lenient policy start forest issued
    rw [run] at ran
    cases ran
    exact ⟨_, attaches⟩

end Action

/-! ## Children of any shape -/

namespace Engine

variable {engine : Engine} {host : Element} {children : List Child} {held : Held} {hookings : List Hooking}

/-- What comes of appending children to an element: only the items in them count; an item is attached
when its turn comes exactly when it could have been at the start; and either all that can be attached are,
or those before the first that cannot be. -/
structure Appends (engine : Engine) (host : Element) (children : List Child) : Prop where
  flat : Action.appendChildren host children engine =
    Action.appendChildren host ((Child.itemsOfAll children).map Item.child) engine
  filled : .text [] ∉ Child.itemsOfAll children
  decided : ∀ before item rest reached, Child.itemsOfAll children = before ++ item :: rest →
    before.forM (Action.appendItem host) engine = .ok ⟨⟩ reached →
      ((∃ after, Action.attach host item reached = .ok none after) ↔
        item.isAttachable engine host.node = true)
  strict : engine.config.append = .strict → ∃ after,
    engine.Attaches host.node
        ((Child.itemsOfAll children).takeWhile (Item.isAttachable engine host.node)) after ∧
      (((∀ item ∈ Child.itemsOfAll children, item.isAttachable engine host.node = true) ∧
          Action.appendChildren host children engine = .ok ⟨⟩ after) ∨
        ((∃ item ∈ Child.itemsOfAll children, item.isAttachable engine host.node = false) ∧
          ∃ cause, Action.appendChildren host children engine =
            .error (.invalidChild host.tag cause) after))
  lenient : engine.config.append = .lenient → ∃ after,
    Action.appendChildren host children engine = .ok ⟨⟩ after ∧
      engine.Attaches host.node
        ((Child.itemsOfAll children).filter (Item.isAttachable engine host.node)) after

theorem appends (forest : engine.document.Forest)
    (issued : ∀ item ∈ Child.itemsOfAll children, item.IsIssued engine) : engine.Appends host children where
  flat := by
    rw [Action.appendChildren, Action.appendChildren,
      Child.itemsOfAll_map_child (Child.text_ne_nil_of_itemsOfAll children)]
  filled member := Child.text_ne_nil_of_itemsOfAll children member rfl
  decided before item rest reached whole run := by
    rw [whole, List.forall_mem_append, List.forall_mem_cons] at issued
    obtain ⟨taken, attaches⟩ := Action.exists_attaches forest issued.1 run
    rcases Action.attach_next attaches forest issued.2.1 with
      ⟨attachable, after, attached, _⟩ | ⟨refused, cause, after, attached, _⟩
    · exact iff_of_true ⟨after, attached⟩ attachable
    · refine iff_of_false ?_ (Bool.eq_false_iff.mp refused)
      rintro ⟨other, otherwise⟩
      rw [attached] at otherwise
      cases otherwise
  strict policy := by
    have ends := Action.appendItems_strict policy (attaches_nothing forest host.node) forest issued
    rwa [List.nil_append] at ends
  lenient policy := by
    have ends := Action.appendItems_lenient policy (attaches_nothing forest host.node) forest issued
    rwa [List.nil_append] at ends

/-- Wherever a caller has brought an engine, children of any shape can be appended to any element, as long
as the elements among them are held and the other nodes were made before. -/
theorem Leads.appendChildren_gathers {uid : Nat} {config : EngineConfig} {entropy : UInt64}
    (leads : (Engine.new uid config entropy).Leads {} hookings engine held) (host : Element)
    (children : List Child)
    (elements : ∀ element, .element element ∈ Child.itemsOfAll children → engine.owns element = true →
      element ∈ held.elements)
    (nodes : ∀ id, .node id ∈ Child.itemsOfAll children → id < engine.document.slots.size) :
    engine.Appends host children := by
  have wired := (leads.wired (wired_new uid config entropy)).1
  obtain ⟨users, guards, known⟩ := wired.guards
  refine appends guards.fits.sound.forest fun item member => ?_
  cases item with
  | element element =>
    intro own
    obtain ⟨data, found⟩ := Option.isSome_iff_exists.mp
      (guards.live (known element (elements element member own) own))
    exact Document.lt_size_of_contains (Document.contains_of_element? found)
  | node id => exact nodes id member
  | text content => trivial

/-- A list gets a text, an item twice and itself: the item stays where it came last, and the list is left
out. -/
theorem appendChildren_gathers_list : ∃ engine held after,
    (Engine.new 0 { append := .lenient } 7).Leads {} [] engine held ∧
      Action.appendChildren ⟨0, 0, "ul".toList⟩ [.many [.node 1, .nothing, .text "a".toList], .text [],
        .element ⟨0, 0, "ul".toList⟩, .element ⟨0, 1, "li".toList⟩] engine = .ok ⟨⟩ after ∧
        engine.document.children 0 = [1] ∧ after.document.children 0 = [2, 1] := by
  let list : Element := ⟨0, 0, "ul".toList⟩
  let item : Element := ⟨0, 1, "li".toList⟩
  let children : List Child :=
    [.many [.node 1, .nothing, .text "a".toList], .text [], .element list, .element item]
  have opened : (Engine.new 0 { append := .lenient } 7).Leads {} [] _ _ := .nothing
  have leads := ((opened.performs (.createElement "ul".toList)).performs
    (.createElement "li".toList)).performs (.append 0 [.element 1])
  have items : Child.itemsOfAll children = [.node 1, .text "a".toList, .element list, .element item] := by
    decide +kernel
  have elements : ∀ element, .element element ∈ Child.itemsOfAll children →
      element = list ∨ element = item := by
    rw [items]
    simp
  have nodes : ∀ id, .node id ∈ Child.itemsOfAll children → id = 1 := by
    rw [items]
    simp
  have appends := leads.appendChildren_gathers list children
    (fun element member _ => by
      rcases elements element member with rfl | rfl <;> decide +kernel)
    (fun id member => by
      rw [nodes id member]
      decide +kernel)
  obtain ⟨after, run, _⟩ := appends.lenient rfl
  refine ⟨_, _, after, leads, run, by decide +kernel, ?_⟩
  rw [← Action.leaves_of_ok run]
  decide +kernel

end Engine

end PageCompiler
