import PageCompiler.Blueprint.Json
import PageCompiler.Proofs.Json.Agreement
import PageCompiler.Proofs.Json.Records

/-!
# Single items and lists

A list may be given as one item in the place of its only one. This is safe for texts and tables of texts,
which are never read from an array. An element is read from one too, but the first entry of that array is its
tag, which is a string, and no element is a string. So a list of elements has no tag.
-/

namespace PageCompiler

open Json (Tree)
open Json.Record

/-- The fields that may be given as one item or as a list of items. -/
inductive ListField where
  | metaTags
  | scripts
  | stylesheets
  | classes
  | lifecycle
  | body

namespace ListField

/-- What a field holds. -/
def Item : ListField → Type
  | metaTags => Entries Text
  | scripts | stylesheets | classes | lifecycle => Text
  | body => Blueprint.Root

/-- What a field belongs to. -/
def Record : ListField → Type
  | metaTags | scripts | stylesheets => HeadConfig
  | classes => Blueprint.Root
  | lifecycle | body => Blueprint

/-- The fields of the record that a field belongs to. -/
def shape : ListField → Shape
  | metaTags | scripts | stylesheets => HeadConfig.shape
  | classes => Blueprint.elementShape
  | lifecycle | body => Blueprint.shape

/-- The name of a field in JSON. -/
def name : ListField → Text
  | metaTags => "meta".toList
  | scripts => "scripts".toList
  | stylesheets => "css".toList
  | classes => "class".toList
  | lifecycle => "lifecycle".toList
  | body => "body".toList

/-- How many fields stand before a field in its record. -/
def position : ListField → Nat
  | metaTags => 1
  | scripts => 2
  | stylesheets => 3
  | classes => 5
  | lifecycle => 4
  | body => 5

/-- Reads an item of a field. -/
def readItem : (field : ListField) → Tree → Option field.Item
  | metaTags => textTable
  | scripts | stylesheets | classes | lifecycle => text
  | body => Blueprint.readRoot Json.depthLimit

/-- Reads the record of a field, whose trees may nest at most `depth` deep. A page has a limit of its own. -/
def readRecord (depth : Nat) : (field : ListField) → Tree → Option field.Record
  | metaTags | scripts | stylesheets => HeadConfig.read? depth
  | classes => Blueprint.readRoot depth
  | lifecycle | body => Blueprint.ofTree

/-- Gives a record other items in a field. -/
def put : (field : ListField) → List field.Item → field.Record → field.Record
  | metaTags => fun items head => { (head : HeadConfig) with metaTags := items }
  | scripts => fun items head => { (head : HeadConfig) with scripts := items }
  | stylesheets => fun items head => { (head : HeadConfig) with stylesheets := items }
  | classes => fun items root => { (root : Blueprint.Root) with properties.classes := items }
  | lifecycle => fun items page => { (page : Blueprint) with lifecycle := items }
  | body => fun items page => { (page : Blueprint) with body := items }

/-- How deep the tree of a field may nest. The classes of an element have no limit of their own. -/
def limit? (depth : Nat) : ListField → Option Nat
  | metaTags | scripts | stylesheets => some depth
  | classes => none
  | lifecycle | body => some Blueprint.fieldDepth

/-- Whether the tree of a field keeps to the limit, and has a value. -/
def admits (depth : Nat) (field : ListField) (tree : Tree) : Bool :=
  (field.limit? depth).all fun limit => (tree.value? limit).isSome

/-- Reads the items of a field. -/
def readItems (depth : Nat) (field : ListField) (tree : Tree) : Option (List field.Item) :=
  match field.limit? depth with
  | some limit => (sound limit tree).bind (oneOrMany field.readItem)
  | none => oneOrMany field.readItem tree

theorem readItems_eq (depth : Nat) (field : ListField) (tree : Tree) :
    field.readItems depth tree =
      if field.admits depth tree then oneOrMany field.readItem tree else none := by
  unfold readItems admits
  cases field.limit? depth with
  | none => rfl
  | some limit =>
    change ((tree.value? limit).map fun _ => tree).bind _ = if (tree.value? limit).isSome then _ else _
    cases tree.value? limit <;> rfl

/-! ## Records with an open list -/

theorem shape_split (field : ListField) :
    field.shape =
      field.shape.take field.position ++ (field.name, .defaulted) :: field.shape.drop (field.position + 1) := by
  cases field <;> rfl

theorem name_apart (field : ListField) :
    (∀ other ∈ field.shape.take field.position, other.1 ≠ field.name) ∧
      ∀ other ∈ field.shape.drop (field.position + 1), other.1 ≠ field.name := by
  cases field <;> decide

variable {depth : Nat} {field : ListField} {whole empty tree : Tree} {before after : List (Option Tree)}

theorem readRecord_of_refused (refused : fields field.shape whole = none) :
    field.readRecord depth whole = none := by
  cases field with
  | metaTags | scripts | stylesheets =>
    rw [readRecord, HeadConfig.read?, show fields HeadConfig.shape whole = none from refused]
    rfl
  | classes =>
    cases depth with
    | zero => rfl
    | succ depth =>
      rw [readRecord, Blueprint.readRoot, show fields Blueprint.elementShape whole = none from refused]
      rfl
  | lifecycle | body =>
    rw [readRecord, Blueprint.ofTree, show fields Blueprint.shape whole = none from refused]
    rfl

/-- The properties of an element are read as if it had no classes, and then get what its classes hold. -/
theorem readProperties_classes (tree : Tree) (tag id content attributes inlineStyle scopedStyle reference
    binding listeners children : Option Tree) :
    Blueprint.readProperties [tag, id, content, attributes, inlineStyle, some tree, scopedStyle, reference,
        binding, listeners, children] =
      (oneOrMany text tree).bind fun classes =>
        (Blueprint.readProperties [tag, id, content, attributes, inlineStyle, some (.array []), scopedStyle,
          reference, binding, listeners, children]).map
          fun read => ({ read.1 with classes }, read.2) := by
  simp only [Blueprint.readProperties, Option.bind_eq_bind]
  exact bind_of_earlier fun tag => bind_of_earlier fun id => bind_of_earlier fun content =>
    bind_of_earlier fun attributes => bind_of_earlier fun inlineStyle => bind_of_own rfl fun classes =>
    bind_of_later fun scopedStyle => bind_of_later fun reference => bind_of_later fun binding =>
    bind_of_later fun listeners => rfl

/-- A record is read as if its open field held an empty list, and then gets what the field holds. -/
theorem readRecord_of_parts (positive : 0 < depth) (front : before.length = field.position)
    (back : after.length = field.shape.length - (field.position + 1))
    (taken : fields field.shape whole = some (before ++ some tree :: after))
    (emptied : fields field.shape empty = some (before ++ some (.array []) :: after)) :
    field.readRecord depth whole =
      (field.readItems depth tree).bind fun items => (field.readRecord depth empty).map (field.put items) := by
  obtain ⟨depth, rfl⟩ := Nat.exists_eq_add_one.mpr positive
  match field, before, after, front, back with
  | metaTags, [title], [sources, sheets, icon, language], _, _ =>
    change fields HeadConfig.shape _ = some [_, _, _, _, _, _] at taken emptied
    simp only [readRecord, HeadConfig.read?, taken, emptied, Option.bind_eq_bind, Option.bind_some]
    exact bind_of_earlier fun title => bind_of_own rfl fun tags => bind_of_later fun sources =>
      bind_of_later fun sheets => bind_of_later fun icon => bind_of_later fun language => rfl
  | scripts, [title, tags], [sheets, icon, language], _, _ =>
    change fields HeadConfig.shape _ = some [_, _, _, _, _, _] at taken emptied
    simp only [readRecord, HeadConfig.read?, taken, emptied, Option.bind_eq_bind, Option.bind_some]
    exact bind_of_earlier fun title => bind_of_earlier fun tags => bind_of_own rfl fun sources =>
      bind_of_later fun sheets => bind_of_later fun icon => bind_of_later fun language => rfl
  | stylesheets, [title, tags, sources], [icon, language], _, _ =>
    change fields HeadConfig.shape _ = some [_, _, _, _, _, _] at taken emptied
    simp only [readRecord, HeadConfig.read?, taken, emptied, Option.bind_eq_bind, Option.bind_some]
    exact bind_of_earlier fun title => bind_of_earlier fun tags => bind_of_earlier fun sources =>
      bind_of_own rfl fun sheets => bind_of_later fun icon => bind_of_later fun language => rfl
  | classes, [tag, id, content, attributes, inlineStyle],
      [scopedStyle, reference, binding, listeners, children], _, _ =>
    change fields Blueprint.elementShape _ = some [_, _, _, _, _, _, _, _, _, _, _] at taken emptied
    rw [readRecord, Blueprint.readRoot, Blueprint.readRoot, taken, emptied]
    simp only [Option.bind_eq_bind, Option.bind_some]
    rw [readProperties_classes tree]
    change ((oneOrMany text tree).bind _).bind _ = (oneOrMany text tree).bind _
    rw [Option.bind_assoc]
    refine Option.bind_congr fun classes _ => ?_
    generalize Blueprint.readProperties _ = found
    cases found with
    | none => rfl
    | some found =>
      rw [Option.map_some, Option.bind_some, Option.bind_some]
      exact bind_of_later fun content => rfl
  | lifecycle, [config, head, state, styles], [roots], _, _ =>
    change fields Blueprint.shape _ = some [_, _, _, _, _, _] at taken emptied
    simp only [readRecord, Blueprint.ofTree, taken, emptied, Option.bind_eq_bind, Option.bind_some]
    exact bind_of_earlier fun config => bind_of_earlier fun head => bind_of_earlier fun state =>
      bind_of_earlier fun styles => bind_of_own rfl fun handlers => bind_of_later fun roots => rfl
  | body, [config, head, state, styles, handlers], [], _, _ =>
    change fields Blueprint.shape _ = some [_, _, _, _, _, _] at taken emptied
    simp only [readRecord, Blueprint.ofTree, taken, emptied, Option.bind_eq_bind, Option.bind_some]
    exact bind_of_earlier fun config => bind_of_earlier fun head => bind_of_earlier fun state =>
      bind_of_earlier fun styles => bind_of_earlier fun handlers => bind_of_own rfl fun roots => rfl

theorem readRecord_fill (positive : 0 < depth) (record : OpenRecord) (fits : record.Fits field.position)
    (tree : Tree) :
    field.readRecord depth (record.fill field.name tree) =
      (field.readItems depth tree).bind fun items =>
        (field.readRecord depth (record.fill field.name (.array []))).map (field.put items) := by
  have inside : field.position ≤ field.shape.length := by cases field <;> decide
  have front : (field.shape.take field.position).length = field.position := List.length_take_of_le inside
  obtain ⟨parts, lengths, taken⟩ :=
    exists_parts field.shape_split record (by rwa [front]) field.name_apart.1 field.name_apart.2
  cases parts with
  | none =>
    rw [readRecord_of_refused (taken tree), readRecord_of_refused (taken (.array []))]
    cases field.readItems depth tree <;> rfl
  | some around =>
    obtain ⟨before, after⟩ := around
    obtain ⟨beforeLength, afterLength⟩ := lengths before after rfl
    rw [front] at beforeLength
    rw [List.length_drop] at afterLength
    exact readRecord_of_parts positive beforeLength afterLength (taken tree) (taken (.array []))

/-! ## No list is taken for an item -/

theorem text_eq_none_of_readRoot {root : Blueprint.Root} (found : Blueprint.readRoot depth tree = some root) :
    text tree = none := by
  cases tree with
  | string =>
    cases depth <;> cases found
  | _ => rfl

theorem readProperties_of_untagged {first : Tree} (untagged : text first = none)
    (others : List (Option Tree)) : Blueprint.readProperties (some first :: others) = none := by
  unfold Blueprint.readProperties
  split
  · next same =>
    cases same
    rw [required, Option.bind_some, untagged]
    rfl
  · rfl

/-- The first entry of an element that is given as an array is its tag. -/
theorem apart_readRoot (depth : Nat) : Apart (Blueprint.readRoot depth) := by
  intro trees roots each
  cases depth with
  | zero => rfl
  | succ depth =>
    rw [Blueprint.readRoot, fields]
    cases each with
    | nil => rfl
    | @cons first root rest roots found _ =>
      rw [Blueprint.elementShape, shapeOf, List.map_cons, ofItems]
      generalize ofItems _ rest = taken
      cases taken with
      | none => rfl
      | some others =>
        change (Blueprint.readProperties (some first :: others) >>= _) = none
        rw [readProperties_of_untagged (text_eq_none_of_readRoot found)]
        rfl

theorem apart_readItem (field : ListField) : Apart field.readItem := by
  cases field with
  | metaTags => exact apart_textTable
  | scripts | stylesheets | classes | lifecycle => exact apart_text
  | body => exact apart_readRoot Json.depthLimit

/-! ## Limits -/

theorem isSome_memberValues? (depth : Nat) {members : List (Option Text × Tree)} {pairs : List (Text × Text)}
    (found : (members.mapM fun member => do return (← member.1, ← text member.2)) = some pairs) :
    (Tree.memberValues? depth members).isSome := by
  induction members generalizing pairs with
  | nil => rfl
  | cons member rest ih =>
    rw [List.mapM_cons] at found
    obtain ⟨pair, first, found⟩ := Option.bind_eq_some_iff.mp found
    obtain ⟨others, later, _⟩ := Option.bind_eq_some_iff.mp found
    obtain ⟨key, known, first⟩ := Option.bind_eq_some_iff.mp first
    obtain ⟨word, read, _⟩ := Option.bind_eq_some_iff.mp first
    obtain ⟨name, tree⟩ := member
    cases known
    cases tree with
    | string content =>
      cases read
      obtain ⟨values, rest⟩ := Option.isSome_iff_exists.mp (ih later)
      rw [Tree.memberValues?, rest]
      rfl
    | _ => cases read

theorem isSome_values? {depth : Nat} {trees : List Tree}
    (each : ∀ tree ∈ trees, (tree.value? depth).isSome) : (Tree.values? depth trees).isSome := by
  induction trees with
  | nil => rfl
  | cons tree rest ih =>
    rw [List.forall_mem_cons] at each
    obtain ⟨value, first⟩ := Option.isSome_iff_exists.mp each.1
    obtain ⟨values, others⟩ := Option.isSome_iff_exists.mp (ih each.2)
    rw [Tree.values?, first, others]
    rfl

theorem isSome_value?_of_readItem {item : field.Item} (flat : field ≠ body) (positive : 0 < depth)
    (found : field.readItem tree = some item) : (tree.value? depth).isSome := by
  have ofText {word : Text} (found : text tree = some word) : (tree.value? depth).isSome := by
    cases tree with
    | string content =>
      rw [show content = some word from found]
      rfl
    | _ => cases found
  cases field with
  | metaTags =>
    cases tree with
    | object members =>
      obtain ⟨pairs, read, _⟩ := Option.map_eq_some_iff.mp found
      rw [Tree.value?, if_neg (Nat.ne_of_gt positive), Option.isSome_map]
      exact isSome_memberValues? _ read
    | _ => cases found
  | scripts | stylesheets | classes | lifecycle => exact ofText found
  | body => exact absurd rfl flat

theorem admits_of_flat {trees : List Tree} {items : List field.Item} (flat : field ≠ body) (deep : 2 ≤ depth)
    (each : List.Forall₂ (fun tree item => field.readItem tree = some item) trees items) :
    field.admits depth (.array trees) ∧ ∀ tree ∈ trees, field.admits depth tree := by
  have read : ∀ limit, 0 < limit → ∀ tree ∈ trees, (tree.value? limit).isSome := by
    intro limit positive tree member
    obtain ⟨item, _, found⟩ := exists_of_forall₂ each member
    exact isSome_value?_of_readItem flat positive found
  have within (limit : Nat) (enough : 2 ≤ limit) : ((Tree.array trees).value? limit).isSome := by
    rw [Tree.value?, if_neg (by omega), Option.isSome_map]
    exact isSome_values? (read (limit - 1) (by omega))
  unfold admits
  cases known : field.limit? depth with
  | none => exact ⟨rfl, fun _ _ => rfl⟩
  | some limit =>
    have enough : 2 ≤ limit := by
      cases field <;> cases known <;> first | exact deep | decide
    exact ⟨within limit enough, read limit (by omega)⟩

/-- One item that can be read and the list of only that item are read the same, and a list of items is read
as these items in order and is never taken for one item. What is read is what the record gets, whatever else
the record holds. Only a limit on how deep JSON nests can stand against this, and it does so for elements
only. -/
theorem single_or_list (field : ListField) (depth : Nat) (positive : 0 < depth) (record : OpenRecord)
    (fits : record.Fits field.position) :
    let reads tree := field.readRecord depth (record.fill field.name tree)
    (∀ tree item, field.readItem tree = some item →
      oneOrMany field.readItem tree = some [item] ∧ oneOrMany field.readItem (.array [tree]) = some [item]) ∧
    (∀ trees items, List.Forall₂ (fun tree item => field.readItem tree = some item) trees items →
      oneOrMany field.readItem (.array trees) = some items ∧ field.readItem (.array trees) = none) ∧
    (∀ tree items, oneOrMany field.readItem tree = some items →
      reads tree = if field.admits depth tree then (reads (.array [])).map (field.put items) else none) ∧
    (field ≠ body → 2 ≤ depth →
      ∀ trees items, List.Forall₂ (fun tree item => field.readItem tree = some item) trees items →
        field.admits depth (.array trees) ∧ ∀ tree ∈ trees, field.admits depth tree) := by
  intro reads
  refine ⟨fun tree item found => ⟨oneOrMany_item found, ?_⟩, fun trees items each => ⟨?_, ?_⟩, ?_, ?_⟩
  · exact oneOrMany_list field.apart_readItem (.cons found .nil)
  · exact oneOrMany_list field.apart_readItem each
  · exact field.apart_readItem trees items each
  · intro tree items found
    change field.readRecord depth (record.fill field.name tree) = _
    rw [readRecord_fill positive record fits, readItems_eq, found]
    split <;> rfl
  · exact fun flat deep trees items => admits_of_flat flat deep

/-- Paragraphs that are given as arrays of their fields. -/
theorem single_or_list_paragraphs :
    let paragraph : Tree := .array [.string (some "p".toList), .null, .null, .object [], .object [], .array [],
      .object [], .null, .null, .object [], .array []]
    let reads (tree : Tree) := Blueprint.ofTree (.object [(some "body".toList, tree)])
    let root : Blueprint.Root := { properties := { tag := "p".toList } }
    Blueprint.readRoot Json.depthLimit paragraph = some root ∧
      Blueprint.readRoot Json.depthLimit (.array [paragraph, paragraph]) = none ∧
      (reads paragraph).map (·.body) = some [root] ∧ reads (.array [paragraph]) = reads paragraph ∧
      (reads (.array [paragraph, paragraph])).map (·.body) = some [root, root] := by
  intro paragraph reads root
  have read : Blueprint.readRoot Json.depthLimit paragraph = some root := rfl
  obtain ⟨alone, several, given, _⟩ := single_or_list body 1 Nat.one_pos (.object [] []) trivial
  obtain ⟨single, listed⟩ := alone paragraph root read
  obtain ⟨both, apart⟩ := several [paragraph, paragraph] [root, root] (.cons read (.cons read .nil))
  have first : reads paragraph = some { body := [root] } := given paragraph [root] single
  have second : reads (.array [paragraph]) = some { body := [root] } := given (.array [paragraph]) [root] listed
  have third : reads (.array [paragraph, paragraph]) = some { body := [root, root] } :=
    given (.array [paragraph, paragraph]) [root, root] both
  refine ⟨read, apart, ?_, second.trans first.symm, ?_⟩
  · rw [first]
    rfl
  · rw [third]
    rfl

end ListField

end PageCompiler
