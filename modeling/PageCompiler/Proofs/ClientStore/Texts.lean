import PageCompiler.Proofs.ClientStore.Numbers
import PageCompiler.Proofs.ClientStore.Order
import PageCompiler.Proofs.Json.ReadBack

/-!
# Values as the client writes them

The texts of two values are equal if and only if the values agree in order, with numbers that the client
takes for the same but for the sign of zero.
-/

namespace PageCompiler.ClientStore

open Json

/-- Whether the client has one number for both, but for the sign of zero. -/
def sameNumber (a b : Number) : Bool :=
  (number a).same (number b)

/-! ## Strings -/

theorem readsAs_flatMap (string rest : Text) :
    ReadsAs (string.flatMap escapedChar ++ '"' :: rest) string rest := by
  induction string with
  | nil => exact readsAs_quote rest
  | cons c string ih =>
    rw [List.flatMap_cons, List.append_assoc]
    exact ih.escapedChar

/-- What is written for a string shows where it ends. -/
theorem stringText_append_inj {a b rest others : Text} (same : stringText a ++ rest = stringText b ++ others) :
    a = b ∧ rest = others := by
  have quoted (string rest : Text) :
      stringText string ++ rest = '"' :: (string.flatMap escapedChar ++ '"' :: rest) := by
    simp [stringText]
  rw [quoted, quoted, List.cons.injEq] at same
  obtain ⟨pieces, read, text⟩ := readsAs_flatMap a rest
  obtain ⟨otherPieces, otherRead, otherText⟩ := readsAs_flatMap b others
  rw [same.2, otherRead, Option.some.injEq, Prod.mk.injEq] at read
  rw [← read.1, otherText] at text
  exact ⟨(Option.some.inj text).symm, read.2.symm⟩

/-! ## First characters -/

/-- A number for each kind of values. -/
def kindOf : Value → Nat
  | .null => 0
  | .bool _ => 1
  | .number _ => 2
  | .string _ => 3
  | .array _ => 4
  | .object _ => 5

/-- The kind of the values that start with a character. -/
def kindOfStart (c : Char) : Nat :=
  if c = 'n' then 0
  else if c = 't' || c = 'f' then 1
  else if c = '-' || c.isDigit then 2
  else if c = '"' then 3
  else if c = '[' then 4
  else if c = '{' then 5
  else 6

theorem sameKind_of_kindOf {a b : Value} (same : kindOf a = kindOf b) : Value.SameKind a b := by
  cases a <;> cases b <;> first | constructor | cases same

variable {a b : Value}

/-- The first character of a value tells of which kind it is. -/
theorem exists_start (sound : a.isSound isHeld = true) :
    ∃ c rest, text a = c :: rest ∧ kindOfStart c = kindOf a := by
  cases a with
  | null => exact ⟨_, _, rfl, rfl⟩
  | bool value => cases value <;> exact ⟨_, _, rfl, rfl⟩
  | string => exact ⟨_, _, rfl, rfl⟩
  | array items => cases items <;> exact ⟨_, _, rfl, rfl⟩
  | object members => cases members <;> exact ⟨_, _, rfl, rfl⟩
  | number value =>
    rw [Value.isSound] at sound
    have read := readLiteral_numberText (isFinite_number sound)
    rw [text]
    cases shape : numberText (number value) with
    | nil =>
      rw [shape] at read
      cases read
    | cons c rest =>
      rw [shape] at read
      refine ⟨c, rest, rfl, ?_⟩
      have starts : (c = '-' || c.isDigit) = true := by simpa using start_of_readLiteral read
      have others : c ≠ 'n' ∧ c ≠ 't' ∧ c ≠ 'f' := by
        refine ⟨?_, ?_, ?_⟩ <;> rintro rfl <;> cases starts
      simp [kindOfStart, others, starts, kindOf]

theorem sameKind_of_text {rest others : Text} (soundA : a.isSound isHeld = true)
    (soundB : b.isSound isHeld = true) (same : text a ++ rest = text b ++ others) : Value.SameKind a b := by
  obtain ⟨c, restA, startA, kindA⟩ := exists_start soundA
  obtain ⟨d, restB, startB, kindB⟩ := exists_start soundB
  rw [startA, startB, List.cons_append, List.cons_append, List.cons.injEq] at same
  refine sameKind_of_kindOf ?_
  rw [← kindA, ← kindB, same.1]

/-! ## Lists of texts -/

/-- What is written for items that follow others, each one after a comma, and the closing bracket. -/
def followingText {α : Type} (written : α → Text) (closing : Char) : List α → Text
  | [] => [closing]
  | item :: rest => ',' :: (written item ++ followingText written closing rest)

/-- What is written for items with commas between them, and the closing bracket. -/
def listText {α : Type} (written : α → Text) (closing : Char) : List α → Text
  | [] => [closing]
  | first :: rest => written first ++ followingText written closing rest

/-- What is written for a member of an object. -/
def memberText (member : Text × Value) : Text :=
  stringText member.1 ++ ':' :: text member.2

theorem itemsText_eq (items : List Value) : itemsText items = followingText text ']' items := by
  induction items with
  | nil => rfl
  | cons item rest ih => rw [itemsText, followingText, ih]

theorem membersText_eq (members : List (Text × Value)) :
    membersText members = followingText memberText '}' members := by
  induction members with
  | nil => rfl
  | cons member rest ih =>
    rw [membersText, followingText, memberText, List.append_assoc, List.cons_append, ih]

theorem text_array (items : List Value) : text (.array items) = '[' :: listText text ']' items := by
  cases items with
  | nil => rfl
  | cons first rest => rw [text, listText, itemsText_eq]

theorem text_object (members : List (Text × Value)) :
    text (.object members) = '{' :: listText memberText '}' members := by
  cases members with
  | nil => rfl
  | cons first rest => rw [text, listText, membersText_eq, memberText, List.append_assoc, List.cons_append]

section Lists

variable {α : Type} {written : α → Text} {closing : Char} {agree : α → α → Prop} {items others : List α}

theorem endsNumber_followingText (closes : EndsNumber [closing]) (items : List α) (rest : Text) :
    EndsNumber (followingText written closing items ++ rest) := by
  cases items with
  | nil => exact closes
  | cons => exact endsNumber_cons (by decide) _

/-- Whether the texts of some items show where they end, and with what the items agree, in front of a text that
ends a number. -/
def AreClear (written : α → Text) (agree : α → α → Prop) (items others : List α) : Prop :=
  ∀ item ∈ items, ∀ other ∈ others, ∀ rest after : Text, EndsNumber rest → EndsNumber after →
    written item ++ rest = written other ++ after → agree item other ∧ rest = after

theorem AreClear.tail {item other : α} (clear : AreClear written agree (item :: items) (other :: others)) :
    AreClear written agree items others :=
  fun _ inside _ there => clear _ (List.mem_cons_of_mem _ inside) _ (List.mem_cons_of_mem _ there)

theorem AreClear.following (closes : EndsNumber [closing]) (ends : closing ≠ ',')
    (clear : AreClear written agree items others) {rest after : Text}
    (same : followingText written closing items ++ rest = followingText written closing others ++ after) :
    List.Forall₂ agree items others ∧ rest = after := by
  induction items generalizing others with
  | nil =>
    cases others with
    | nil => exact ⟨.nil, (List.cons.inj same).2⟩
    | cons => exact absurd (List.cons.inj same).1 ends
  | cons item items ih =>
    cases others with
    | nil => exact absurd (List.cons.inj same).1.symm ends
    | cons other others =>
      rw [followingText, followingText, List.cons_append, List.cons_append, List.append_assoc,
        List.append_assoc] at same
      obtain ⟨agrees, same⟩ := clear item List.mem_cons_self other List.mem_cons_self _ _
        (endsNumber_followingText closes _ _) (endsNumber_followingText closes _ _) (List.cons.inj same).2
      obtain ⟨all, same⟩ := ih clear.tail same
      exact ⟨.cons agrees all, same⟩

/-- Lists with one text agree item by item if no item can be taken for the closing bracket. -/
theorem AreClear.list (closes : EndsNumber [closing]) (ends : closing ≠ ',')
    (clear : AreClear written agree items others)
    (starts : ∀ item, item ∈ items ∨ item ∈ others →
      ∀ rest after : Text, written item ++ rest ≠ closing :: after) {rest after : Text}
    (same : listText written closing items ++ rest = listText written closing others ++ after) :
    List.Forall₂ agree items others ∧ rest = after := by
  cases items with
  | nil =>
    cases others with
    | nil => exact ⟨.nil, (List.cons.inj same).2⟩
    | cons other others =>
      rw [listText, listText, List.append_assoc] at same
      exact absurd same.symm (starts other (.inr List.mem_cons_self) _ _)
  | cons item items =>
    cases others with
    | nil =>
      rw [listText, listText, List.append_assoc] at same
      exact absurd same (starts item (.inl List.mem_cons_self) _ _)
    | cons other others =>
      refine clear.following closes ends ?_
      rw [followingText, followingText, List.cons_append, List.cons_append]
      exact congrArg (List.cons ',') same

theorem listText_congr (same : List.Forall₂ (fun a b => written a = written b) items others) :
    listText written closing items = listText written closing others := by
  have following {items others : List α} (same : List.Forall₂ (fun a b => written a = written b) items others) :
      followingText written closing items = followingText written closing others := by
    induction same with
    | nil => rfl
    | cons head _ ih => rw [followingText, followingText, head, ih]
  cases same with
  | nil => rfl
  | cons head tail => rw [listText, listText, head, following tail]

end Lists

/-! ## Equal texts -/

/-- No item starts with the closing bracket. -/
theorem text_ne_bracket (sound : a.isSound isHeld = true) (rest after : Text) : text a ++ rest ≠ ']' :: after := by
  intro same
  obtain ⟨c, others, start, kind⟩ := exists_start sound
  rw [start, List.cons_append, List.cons.injEq] at same
  rw [same.1] at kind
  cases a <;> cases kind

theorem memberText_append (member : Text × Value) (rest : Text) :
    memberText member ++ rest = stringText member.1 ++ ':' :: (text member.2 ++ rest) := by
  rw [memberText, List.append_assoc, List.cons_append]

/-- Values that are written in the same way agree in order, and what is written for a value shows where it ends. -/
theorem text_append_inj (soundA : a.isSound isHeld = true) (soundB : b.isSound isHeld = true)
    {rest after : Text} (endsA : EndsNumber rest) (endsB : EndsNumber after)
    (same : text a ++ rest = text b ++ after) : a.alike sameNumber b = true ∧ rest = after := by
  induction a using Value.induction generalizing b rest after with
  | step a ih =>
    cases sameKind_of_text soundA soundB same with
    | null => exact ⟨rfl, List.append_cancel_left same⟩
    | bool a b =>
      cases a <;> cases b
      · exact ⟨rfl, List.append_cancel_left same⟩
      · cases same
      · cases same
      · exact ⟨rfl, List.append_cancel_left same⟩
    | number a b => exact numberText_append_inj soundA soundB endsA endsB same
    | string a b =>
      obtain ⟨rfl, rest⟩ := stringText_append_inj same
      exact ⟨beq_self_eq_true a, rest⟩
    | array items others =>
      rw [Value.isSound_array_iff] at soundA soundB
      rw [Value.alike_array_iff]
      rw [text_array, text_array, List.cons_append, List.cons_append, List.cons.injEq] at same
      have clear : AreClear text (fun a b => a.alike sameNumber b = true) items others :=
        fun item inside other there _ _ ends ends' =>
          ih item inside (soundA item inside) (soundB other there) ends ends'
      refine clear.list (endsNumber_cons (by decide) _) (by decide) ?_ same.2
      exact fun item listed => text_ne_bracket (listed.elim (soundA item) (soundB item))
    | object members others =>
      rw [Value.isSound_object_iff] at soundA soundB
      rw [Value.alike_object_iff]
      rw [text_object, text_object, List.cons_append, List.cons_append, List.cons.injEq] at same
      have clear : AreClear memberText
          (fun member other => member.1 = other.1 ∧ member.2.alike sameNumber other.2 = true) members others := by
        intro member inside other there rest after ends ends' same
        rw [memberText_append, memberText_append] at same
        obtain ⟨key, same⟩ := stringText_append_inj same
        obtain ⟨agree, same⟩ := ih member.2 (Value.mem_parts_of_mem inside) (soundA.2 member inside)
          (soundB.2 other there) ends ends' (List.cons.inj same).2
        exact ⟨⟨key, agree⟩, same⟩
      refine clear.list (endsNumber_cons (by decide) _) (by decide) ?_ same.2
      -- A key starts with a quote.
      intro member _ rest after same
      cases (List.cons.inj same).1

/-- Values that agree are written in the same way. -/
theorem text_eq_of_alike (soundA : a.isSound isHeld = true) (soundB : b.isSound isHeld = true)
    (agree : a.alike sameNumber b = true) : text a = text b := by
  induction a using Value.induction generalizing b with
  | step a ih =>
    cases Value.sameKind_of_alike agree with
    | null => rfl
    | bool a b => rw [show a = b from eq_of_beq agree]
    | string a b => rw [show a = b from eq_of_beq agree]
    | number a b => exact numberText_eq_of_same soundA soundB agree
    | array items others =>
      rw [Value.isSound_array_iff] at soundA soundB
      rw [Value.alike_array_iff] at agree
      rw [text_array, text_array]
      refine congrArg _ (listText_congr (forall₂_imp_of_mem agree fun a inside b there => ?_))
      exact ih a inside (soundA a inside) (soundB b there)
    | object members others =>
      rw [Value.isSound_object_iff] at soundA soundB
      rw [Value.alike_object_iff] at agree
      rw [text_object, text_object]
      refine congrArg _ (listText_congr (forall₂_imp_of_mem agree fun member inside other there agree => ?_))
      have value := ih member.2 (Value.mem_parts_of_mem inside) (soundA.2 member inside)
        (soundB.2 other there) agree.2
      rw [memberText, memberText, agree.1, value]

theorem text_eq_iff (soundA : a.isSound isHeld = true) (soundB : b.isSound isHeld = true) :
    text a = text b ↔ a.alike sameNumber b = true := by
  have ends : EndsNumber [] := fun _ member => nomatch member
  exact ⟨fun same => (text_append_inj soundA soundB ends ends (congrArg (· ++ []) same)).1,
    text_eq_of_alike soundA soundB⟩

end PageCompiler.ClientStore
