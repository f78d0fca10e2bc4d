import PageCompiler.Bootstrap
import PageCompiler.Proofs.Json.ReadBack
import PageCompiler.Proofs.Script.Literals

/-!
# Data in the client script

The reference table and the client state stand in the client script as JSON text. Both passes over the
script copy them, and the code around them stays in a form in which they are found again: each is one value
after its name and an equals sign.
-/

namespace PageCompiler

open Markup Steps

/-! ## Values in scripts -/

namespace Json

/-- A character of a number neither is blank nor starts a literal or a comment. -/
theorem isPlain_of_isTextChar {c : Char} (shown : Number.isTextChar c = true) :
    Script.isPlain c = true := by
  rw [Number.isTextChar, Bool.or_eq_true] at shown
  rcases shown with digit | mark
  · have range : 48 ≤ c.toNat ∧ c.toNat ≤ 57 := Char.isDigit_iff_toNat.mp digit
    have unquoted : c ≠ '"' ∧ c ≠ '\'' ∧ c ≠ '\x60' ∧ c ≠ '/' := by
      refine ⟨?_, ?_, ?_, ?_⟩ <;> rintro rfl <;> exact absurd digit (by decide)
    have solid : Text.isBlank c = false := by
      simp [Text.isBlank]
      omega
    simp [Script.isPlain, Script.isQuote, unquoted, solid]
  · have all : ['-', '+', '.', 'e'].all Script.isPlain = true := by decide
    exact List.all_eq_true.mp all c (List.contains_iff_mem.mp mark)

end Json

namespace Script

mutual

/-- A value that is written as JSON is copied wherever it stands in code. -/
theorem copied_valueText : (value : Json.Value) → {last next : Option Char} →
    Copied last next value.text
  | .null, _, _ => .plain (by decide)
  | .bool true, _, _ => .plain (by decide)
  | .bool false, _, _ => .plain (by decide)
  | .number value, _, _ =>
    .plain (List.all_eq_true.mpr fun c member =>
      Json.isPlain_of_isTextChar (Json.Number.isTextChar_of_mem_text value c member))
  | .string text, _, _ => .stringText text
  | .array [], _, _ => .plain (by decide)
  | .array (first :: items), _, _ =>
    Copied.cons (by decide) ((copied_valueText first).append (copied_itemsText items))
  | .object [], _, _ => .plain (by decide)
  | .object ((key, value) :: members), _, _ =>
    Copied.cons (by decide) ((Copied.stringText key).append
      (Copied.cons (by decide)
        ((copied_valueText value).append (copied_membersText members))))

theorem copied_itemsText : (items : List Json.Value) → {last next : Option Char} →
    Copied last next (Json.Value.itemsText items)
  | [], _, _ => .plain (by decide)
  | item :: items, _, _ =>
    Copied.cons (by decide) ((copied_valueText item).append (copied_itemsText items))

theorem copied_membersText : (members : List (Text × Json.Value)) → {last next : Option Char} →
    Copied last next (Json.Value.membersText members)
  | [], _, _ => .plain (by decide)
  | (key, value) :: members, _, _ =>
    Copied.cons (by decide) ((Copied.stringText key).append
      (Copied.cons (by decide)
        ((copied_valueText value).append (copied_membersText members))))

end

end Script

namespace Bootstrap

/-- The script up to the reference table, without its gaps. -/
def shortBeforeReferences : Text :=
  "(function()\x7b\"use strict\";var $refTable=".toList

/-- The script between the reference table and the client state, without its gaps. -/
def shortBeforeState : Text :=
  ";var $seed=".toList

section Runs

open Script

theorem exists_objectText (members : List (Text × Json.Value)) :
    ∃ inside, (Json.Value.object members).text = '\x7b' :: inside := by
  cases members <;> exact ⟨_, rfl⟩

theorem head?_objectText_append (members : List (Text × Json.Value)) (rest : Text) :
    ((Json.Value.object members).text ++ rest).head? = some '\x7b' := by
  obtain ⟨inside, opens⟩ := exists_objectText members
  rw [opens]
  rfl

theorem strip_beforeReferences :
    stripStep.run (some '\x7b') (.code, none) beforeReferences =
      .ok (beforeReferences, .code, some '=') := by
  decide +kernel

theorem collapse_beforeReferences :
    collapseStep.run (some '\x7b') ⟨none, .none, none⟩ beforeReferences =
      .ok (shortBeforeReferences, ⟨none, .space, some '='⟩) := by
  rfl

theorem strip_beforeState (next last : Option Char) :
    stripStep.run next (.code, last) beforeState =
      .ok (beforeState, .code, some '=') := by
  rfl

theorem collapse_beforeState (last : Option Char) :
    collapseStep.run (some '\x7b') ⟨none, .none, last⟩ beforeState =
      .ok (shortBeforeState, ⟨none, .space, some '='⟩) := by
  rfl

/-- An object that stands after an equals sign and a space is copied without the space. -/
theorem collapse_objectText (members : List (Text × Json.Value)) (next : Option Char) :
    collapseStep.run next ⟨none, .space, some '='⟩ (Json.Value.object members).text =
      .ok ((Json.Value.object members).text,
        ⟨none, .none, lastVisibleOf (some '=') (Json.Value.object members).text⟩) := by
  have copied : Copied (some '=') next (Json.Value.object members).text := copied_valueText _
  obtain ⟨inside, opens⟩ := exists_objectText members
  have run := copied.collapsed
  rw [opens] at run ⊢
  exact Token.run_collapseStep_gap (by decide) run

end Runs

/-- A script that begins like every client script, up to the client state. -/
def around (opening middle : Text) (references state : List (Text × Json.Value)) (rest : Text) : Text :=
  opening ++ ((Json.Value.object references).text ++
    (middle ++ ((Json.Value.object state).text ++ rest)))

open Script in
/-- A client script that is shrunk begins with the same data. -/
theorem exists_minify_around {references state : List (Text × Json.Value)} {rest short : Text}
    (run : minify (around beforeReferences beforeState references state rest) = .ok short) :
    ∃ more, short = around shortBeforeReferences shortBeforeState references state more := by
  obtain ⟨bare, stripRun, collapseRun⟩ := bind_eq_ok.mp run
  obtain ⟨_, stripped, -⟩ := stripComments_eq_ok.mp stripRun
  obtain ⟨bareRest, rfl⟩ :
      ∃ more, bare = around beforeReferences beforeState references state more := by
    obtain ⟨first, ranTable, rfl⟩ := Pass.exists_run_rest
      (by rw [head?_objectText_append]; exact strip_beforeReferences) stripped
    obtain ⟨second, ranMiddle, rfl⟩ := Pass.exists_run_rest (copied_valueText _).stripped ranTable
    obtain ⟨third, ranState, rfl⟩ := Pass.exists_run_rest (strip_beforeState _ _) ranMiddle
    obtain ⟨more, _, rfl⟩ := Pass.exists_run_rest (copied_valueText _).stripped ranState
    exact ⟨more, rfl⟩
  obtain ⟨_, collapsed, -⟩ := collapseWhitespace_eq_ok.mp collapseRun
  obtain ⟨first, ranTable, rfl⟩ := Pass.exists_run_rest
    (by rw [head?_objectText_append]; exact collapse_beforeReferences) collapsed
  obtain ⟨second, ranMiddle, rfl⟩ := Pass.exists_run_rest (collapse_objectText _ _) ranTable
  obtain ⟨third, ranState, rfl⟩ := Pass.exists_run_rest
    (by rw [head?_objectText_append]; exact collapse_beforeState _) ranMiddle
  obtain ⟨more, _, rfl⟩ := Pass.exists_run_rest (collapse_objectText _ _) ranState
  exact ⟨more, rfl⟩

/-! ## Reading the data of a script -/

/-- What follows a name and an equals sign at the start of a text. -/
def afterAssignment (name text : Text) : Option Text := do
  let rest ← Json.afterWord name text
  let rest ← Json.afterWord ['='] (Json.skipSpace rest)
  some (Json.skipSpace rest)

/-- What follows the first place in a text where an equals sign comes after a name. -/
def afterFirstAssignment (name : Text) : Text → Option Text
  | [] => none
  | c :: rest =>
    match afterAssignment name (c :: rest) with
    | some after => some after
    | none => afterFirstAssignment name rest

/-- What follows the declaration of the client state, after the end of another one. -/
def afterDeclaration (text : Text) : Option Text := do
  let rest ← Json.afterWord [';'] (Json.skipSpace text)
  let rest ← Json.afterWord "var".toList (Json.skipSpace rest)
  afterAssignment "$seed".toList (Json.skipSpace rest)

/-- The reference table and the client state of a script: the value after the first equals sign of the
table, and the value in the declaration of the state that follows it. -/
def readData (script : Text) : Option (Json.Value × Json.Value) := do
  let rest ← afterFirstAssignment "$refTable".toList script
  let (references, rest) ← Json.Value.readFirst rest
  let rest ← afterDeclaration rest
  let (state, _) ← Json.Value.readFirst rest
  some (references, state)

/-- Whether the code before the reference table and that before the client state leave both to be found,
without delimiters of markup. -/
structure Announces (opening middle : Text) : Prop where
  table : ∀ inside, afterFirstAssignment "$refTable".toList (opening ++ '\x7b' :: inside) =
    some ('\x7b' :: inside)
  state : ∀ inside, afterDeclaration (middle ++ '\x7b' :: inside) = some ('\x7b' :: inside)
  plain : '<' ∉ opening ∧ '<' ∉ middle

theorem announces_before : Announces beforeReferences beforeState where
  table _ := by rfl
  state _ := by rfl
  plain := by decide

theorem announces_shortBefore : Announces shortBeforeReferences shortBeforeState where
  table _ := by rfl
  state _ := by rfl
  plain := by decide

section Reading

variable {references state : List (Text × Json.Value)}
  (properReferences : (Json.Value.object references).isProper = true)
  (properState : (Json.Value.object state).isProper = true)

include properReferences properState

/-- The data of a script is read through the shield of a raw text element. -/
theorem readData_around (tag : Text) {opening middle : Text} (announces : Announces opening middle)
    (rest : Text) :
    readData (shielded tag (around opening middle references state rest)) =
      some (.object references, .object state) := by
  have shape (members : List (Text × Json.Value)) (rest : Text) :
      ∃ inside, shielded tag ((Json.Value.object members).text ++ rest) = '\x7b' :: inside := by
    have head : (shielded tag ((Json.Value.object members).text ++ rest)).head? = some '\x7b' := by
      rw [head?_shielded, head?_objectText_append]
    exact List.head?_eq_some_iff.mp head
  have table : afterFirstAssignment "$refTable".toList
      (shielded tag (around opening middle references state rest)) =
        some (shielded tag ((Json.Value.object references).text ++
          (middle ++ ((Json.Value.object state).text ++ rest)))) := by
    rw [around, shielded_append tag announces.plain.1]
    obtain ⟨inside, opens⟩ := shape references (middle ++ ((Json.Value.object state).text ++ rest))
    rw [opens]
    exact announces.table inside
  have declared : afterDeclaration (shielded tag (middle ++ ((Json.Value.object state).text ++ rest))) =
      some (shielded tag ((Json.Value.object state).text ++ rest)) := by
    rw [shielded_append tag announces.plain.2]
    obtain ⟨inside, opens⟩ := shape state rest
    rw [opens]
    exact announces.state inside
  have noNumber (members : List (Text × Json.Value)) {rest : Text} :
      (Json.Value.object members).IsNumber → Json.EndsNumber rest := False.elim
  exact Option.bind_eq_some_iff.mpr ⟨_, table, Option.bind_eq_some_iff.mpr
    ⟨_, Json.Value.readFirst_shielded tag properReferences (noNumber _),
      Option.bind_eq_some_iff.mpr ⟨_, declared, Option.bind_eq_some_iff.mpr
        ⟨_, Json.Value.readFirst_shielded tag properState (noNumber _), rfl⟩⟩⟩⟩

/-- The data of a client script is read from the script as it is composed and as it is shrunk. -/
theorem readData_compose (tag behavior : Text) (publish : Bool) :
    let script := compose (Json.Value.object references).text (Json.Value.object state).text behavior
      publish
    readData (shielded tag script) = some (.object references, .object state) ∧
      ∀ short, Script.minify script = .ok short →
        readData (shielded tag short) = some (.object references, .object state) := by
  have shape : compose (Json.Value.object references).text (Json.Value.object state).text behavior
      publish = around beforeReferences beforeState references state
        (helpers ++ ((if publish then publication else []) ++
          (beforeBehavior ++ (behavior ++ afterBehavior)))) := by
    rw [compose, around]
    simp only [List.append_assoc]
  rw [shape]
  refine ⟨readData_around properReferences properState tag announces_before _, fun short run => ?_⟩
  obtain ⟨more, rfl⟩ := exists_minify_around run
  exact readData_around properReferences properState tag announces_shortBefore more

end Reading

end Bootstrap

end PageCompiler
