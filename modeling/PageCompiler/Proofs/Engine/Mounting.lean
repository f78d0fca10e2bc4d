import PageCompiler.Proofs.Engine.Building

/-!
# Mounting roots and the script

Once the head is built, roots without a parent move into the body and the client script is put after
them. None of this can fail.
-/

namespace PageCompiler

open Markup Steps

namespace Building

variable {origin : Engine} {shell : Shell} {language : Text} {made : List Tree}
  {mounted : List NodeId} {document : Document}

/-- A root that had no parent but the body can be put into the body. -/
theorem mountable (building : Building origin shell language made mounted document) {root : NodeId}
    (user : origin.IsUserNode root) (live : origin.document.contains root = true)
    (free : origin.host? root = none) (new : root ∉ mounted) :
    Edit.appendProblem document shell.body root = none ∧ document.parent? root = none := by
  have stage := building.stage
  have forest := stage.sound.forest
  constructor
  · rw [Edit.appendProblem_eq_none_iff forest]
    refine ⟨stage.stands.mayHost_body, ?_, ?_⟩
    · rw [Document.contains_congr (stage.kinds user), live]
    · apply stage.not_below_body
      · rintro rfl
        exact stage.bodyApart user
      · rintro rfl
        exact stage.htmlApart user
  · cases step : document.parent? root with
    | none => rfl
    | some parent =>
      exfalso
      by_cases body : parent = shell.body
      · rw [body] at step
        rw [← building.body, forest.linked] at new
        exact new step
      · have host := (stage.hosts user).symm.trans (Stage.host?_during.mpr ⟨step, body⟩)
        rw [free] at host
        cases host

/-- One root is mounted. -/
theorem mount (building : Building origin shell language made mounted document) {root : NodeId}
    (user : origin.IsUserNode root) (live : origin.document.contains root = true)
    (free : origin.host? root = none) (new : root ∉ mounted) :
    Edit.appendChild shell.body root document = .ok () (document.moved shell.body root) ∧
      Building origin shell language made (mounted ++ [root]) (document.moved shell.body root) := by
  obtain ⟨possible, orphan⟩ := building.mountable user live free new
  have stage := building.stage
  have forest := stage.sound.forest
  have notHtml : root ≠ shell.html := by
    rintro rfl
    exact stage.htmlApart user
  have kinds (id : NodeId) : (document.moved shell.body root).kind? id = document.kind? id :=
    Document.kind?_relinked _ _ _
  have lists (id : NodeId) := forest.children_moved_orphan stage.stands.contains_body orphan id
  have after := stage.moved possible orphan stage.bodyApart (stage.stands.html_ne_body forest).symm
    notHtml (Or.inl rfl)
  refine ⟨Edit.appendChild_run forest possible, after, building.noScript, ?_, ?_, ?_⟩
  · rw [Document.element?_congr (kinds _), building.html]
  · rw [← building.head]
    apply stage.trees_head_kept after.sound.forest
    · exact fun _ => kinds _
    · intro id _ notBody
      rw [lists, if_neg notBody, List.append_nil]
  · rw [lists, if_pos rfl, building.body]

/-- All roots are mounted, in order. -/
theorem mount_all (building : Building origin shell language made mounted document)
    (roots : List NodeId) (users : ∀ root ∈ roots, origin.IsUserNode root)
    (live : ∀ root ∈ roots, origin.document.contains root = true)
    (free : ∀ root ∈ roots, origin.host? root = none) (distinct : (mounted ++ roots).Nodup) :
    ∃ changed, (roots.forM fun root => Edit.appendChild shell.body root) document = .ok () changed ∧
      Building origin shell language made (mounted ++ roots) changed := by
  induction roots generalizing document mounted with
  | nil =>
    refine ⟨document, rfl, ?_⟩
    rw [List.append_nil]
    exact building
  | cons first rest ih =>
    rw [List.forall_mem_cons] at users live free
    have new : first ∉ mounted := by
      intro member
      have apart := (List.nodup_append.mp distinct).2.2
      exact apart first member first List.mem_cons_self rfl
    obtain ⟨run, after⟩ := building.mount users.1 live.1 free.1 new
    have distinctRest : (mounted ++ [first] ++ rest).Nodup := by
      rw [List.append_assoc]
      exact distinct
    obtain ⟨changed, restRun, afterRest⟩ := ih after users.2 live.2 free.2 distinctRest
    rw [List.append_assoc] at afterRest
    exact ⟨changed, (forM_cons_of_ok first rest run).trans restRun, afterRest⟩

end Building

/-! ## The client script -/

/-- A document with a new script element that holds a text. -/
def Markup.Document.scripted (document : Document) (source : Text) : Document :=
  if source.isEmpty then document.push { kind := .element { tag := "script".toList } }
  else (document.push { kind := .element { tag := "script".toList } }).grafted document.slots.size
    (.text source)

namespace Markup.Document

variable {document : Document}

theorem formed_script :
    ∀ data, NodeKind.element { tag := "script".toList } = .element data → data.WellFormed :=
  formed_named (by decide) (by decide)

theorem element?_new_script :
    (document.push { kind := .element { tag := "script".toList } }).element? document.slots.size =
      some { tag := "script".toList } := by
  rw [element?_eq_some_iff_kind?, kind?_push, if_pos rfl]

theorem mayHost_new_script :
    (document.push { kind := .element { tag := "script".toList } }).MayHost document.slots.size :=
  ⟨_, element?_new_script, by decide⟩

theorem kind?_scripted (source : Text) {id : NodeId} (inside : id < document.slots.size + 1) :
    (document.scripted source).kind? id =
      (document.push { kind := .element { tag := "script".toList } }).kind? id := by
  rw [scripted]
  split
  · rfl
  · rw [kind?_grafted, if_neg]
    rw [size_push]
    exact Nat.ne_of_lt inside

theorem parent?_scripted (source : Text) {id : NodeId} (inside : id < document.slots.size + 1) :
    (document.scripted source).parent? id = document.parent? id := by
  rw [scripted]
  split
  · rw [parent?_push]
  · rw [parent?_grafted, parent?_push, if_neg]
    rw [size_push]
    exact Nat.ne_of_lt inside

theorem element?_scripted (source : Text) :
    (document.scripted source).element? document.slots.size = some { tag := "script".toList } := by
  rw [element?_congr (kind?_scripted source (Nat.lt_succ_self _)), element?_new_script]

theorem Forest.children_scripted (forest : document.Forest) (source : Text) (id : NodeId) :
    (document.scripted source).children id = document.children id ++
      if id = document.slots.size ∧ source.isEmpty = false then [document.slots.size + 1] else [] := by
  have live : (document.push { kind := .element { tag := "script".toList } }).contains
      document.slots.size = true := contains_of_element? element?_new_script
  rw [scripted]
  cases source.isEmpty with
  | true => rw [if_pos rfl, children_push, if_neg (by simp), List.append_nil]
  | false =>
    rw [if_neg (by simp), children_grafted (forest.pushed _) live, children_push, size_push]
    simp only [and_true]

theorem kind?_scripted_text {source : Text} (filled : source.isEmpty = false) :
    (document.scripted source).kind? (document.slots.size + 1) = some (.text source) := by
  rw [scripted, filled, if_neg (by simp), kind?_grafted, size_push, if_pos rfl]

theorem Forest.scripted (forest : document.Forest) (source : Text) :
    (document.scripted source).Forest := by
  rw [Document.scripted]
  split
  · exact forest.pushed _
  · exact (forest.pushed _).grafted mayHost_new_script _

theorem Forest.scripted_run (forest : document.Forest) (source : Text) :
    Edit.setTextContent document.slots.size source
        (document.push { kind := .element { tag := "script".toList } }) =
      .ok () (document.scripted source) := by
  have pushed := forest.pushed (.element { tag := "script".toList })
  rw [Edit.setTextContent_run pushed mayHost_new_script, Document.filled,
    Edit.emptied_of_childless pushed (children_pushed _), Document.scripted]

/-- The new script is put after everything in its host, with its text in it. -/
theorem Forest.scripted_moved (forest : document.Forest) (source : Text) {host : NodeId}
    (inside : host < document.slots.size)
    (possible : Edit.appendProblem (document.scripted source) host document.slots.size = none) :
    ((document.scripted source).moved host document.slots.size).Forest ∧
      (∀ id < document.slots.size,
        ((document.scripted source).moved host document.slots.size).kind? id = document.kind? id ∧
        ((document.scripted source).moved host document.slots.size).children id =
          document.children id ++ if id = host then [document.slots.size] else []) ∧
      ((document.scripted source).moved host document.slots.size).tree? document.slots.size =
        some (Tree.filled { tag := "script".toList } source) := by
  have scripted := forest.scripted source
  obtain ⟨possibleHost, live, outside⟩ := (Edit.appendProblem_eq_none_iff scripted).mp possible
  have moved := scripted.moved possibleHost live outside
  have orphan : (document.scripted source).parent? document.slots.size = none := by
    rw [parent?_scripted source (Nat.lt_succ_self _), parent?_of_size_le (Nat.le_refl _)]
  have hostLive : (document.scripted source).contains host = true := by
    obtain ⟨data, found, _⟩ := possibleHost
    exact contains_of_element? found
  have lists (id : NodeId) := scripted.children_moved_orphan hostLive orphan id
  refine ⟨moved, fun id old => ⟨?_, ?_⟩, ?_⟩
  · rw [Document.moved, kind?_relinked, kind?_scripted source (Nat.lt_succ_of_lt old), kind?_push,
      if_neg (Nat.ne_of_lt old)]
  · rw [lists, forest.children_scripted, if_neg fun both => Nat.ne_of_lt old both.1, List.append_nil]
  · have found : ((document.scripted source).moved host document.slots.size).element?
        document.slots.size = some { tag := "script".toList } := by
      rw [Document.moved, element?_relinked, element?_scripted]
    rw [moved.tree?_element found, lists, if_neg (Nat.ne_of_gt inside), List.append_nil,
      forest.children_scripted, children_of_node?_none (node?_of_size_le (Nat.le_refl _)), Tree.filled]
    cases empty : source.isEmpty with
    | true => simp [trees]
    | false =>
      have text : ((document.scripted source).moved host document.slots.size).tree?
          (document.slots.size + 1) = some (.text source) := by
        apply tree?_text
        rw [Document.moved, kind?_relinked, kind?_scripted_text empty]
      simp [trees, text]

end Markup.Document

/-- A document in which the page is complete. -/
structure Finished (origin : Engine) (shell : Shell) (language : Text) (made : List Tree)
    (mounted : List NodeId) (source : Text) (document : Document) : Prop where
  stage : Stage origin shell document
  html : document.element? shell.html =
    some { tag := "html".toList, attributes := [("lang".toList, language)] }
  head : document.trees (document.children shell.head) = made
  body : ∃ script, document.children shell.body = mounted ++ [script] ∧
    document.tree? script = some (Tree.filled { tag := "script".toList } source)

namespace Building

section Script

variable {origin : Engine} {shell : Shell} {language : Text} {made : List Tree}
  {mounted : List NodeId} {document : Document}
  (building : Building origin shell language made mounted document) (source : Text)

include building

theorem stage_scripted : Stage origin shell (document.scripted source) := by
  have stage := building.stage.pushed Document.formed_script
  rw [Document.scripted]
  split
  · exact stage
  · apply stage.grafted Document.mayHost_new_script
    · exact fun user => Nat.lt_irrefl _ (building.stage.lt_size_of_user user)
    · exact building.stage.html_ne_size.symm
    · simp

/-- The script is put after the roots, and the page is complete. -/
theorem finished :
    Edit.appendChild shell.body document.slots.size (document.scripted source) =
        .ok () ((document.scripted source).moved shell.body document.slots.size) ∧
      Finished origin { shell with script := some document.slots.size } language made mounted source
        ((document.scripted source).moved shell.body document.slots.size) := by
  have stage := building.stage
  have forest := stage.sound.forest
  have scripted := building.stage_scripted source
  have live : (document.scripted source).contains document.slots.size = true :=
    Document.contains_of_element? (Document.element?_scripted source)
  have orphan : (document.scripted source).parent? document.slots.size = none := by
    rw [Document.parent?_scripted source (Nat.lt_succ_self _),
      Document.parent?_of_size_le (Nat.le_refl _)]
  have apart : ¬ origin.IsUserNode document.slots.size := fun user =>
    Nat.lt_irrefl _ (stage.lt_size_of_user user)
  have possible : Edit.appendProblem (document.scripted source) shell.body document.slots.size =
      none := by
    rw [Edit.appendProblem_eq_none_iff scripted.sound.forest]
    exact ⟨scripted.stands.mayHost_body, live,
      scripted.not_below_body stage.body_ne_size.symm stage.html_ne_size.symm⟩
  have moved := scripted.moved possible orphan stage.bodyApart
    (stage.stands.html_ne_body forest).symm stage.html_ne_size.symm (Or.inl rfl)
  have bodyOld := Document.lt_size_of_contains stage.stands.contains_body
  obtain ⟨_, kept, scriptTree⟩ := forest.scripted_moved source bodyOld possible
  refine ⟨Edit.appendChild_run scripted.sound.forest possible, ⟨?_, ?_, ?_, ?_⟩⟩
  · apply moved.withScript _ apart
    rw [Document.parent?_moved live, if_pos rfl]
  · rw [← building.html]
    exact Document.element?_congr (kept _ (Document.lt_size_of_contains stage.stands.contains_html)).1
  · rw [← building.head]
    apply stage.trees_head_kept moved.sound.forest fun inside => (kept _ inside).1
    intro id inside notBody
    rw [(kept id inside).2, if_neg notBody, List.append_nil]
  · refine ⟨document.slots.size, ?_, scriptTree⟩
    rw [(kept _ bodyOld).2, if_pos rfl, building.body]

end Script

end Building

end PageCompiler
