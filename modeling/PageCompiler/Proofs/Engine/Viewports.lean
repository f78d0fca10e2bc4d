import PageCompiler.Proofs.Engine.Heads
import PageCompiler.Proofs.Markup.StartTags

/-!
# Viewports

A page that is to have its own viewport says so by a meta tag, and otherwise the default one is added. That is
decided by the settings, where the name of an attribute may be spelled in any letters; in the page it is in
small letters, and of several spellings the last one gives the value. So the two agree on whether there is a
viewport as long as the settings spell the name in small letters, too.
-/

namespace PageCompiler

open Markup Steps

/-! ## Names in any letters -/

namespace Text

theorem le_toLower (c : Char) : c ≤ c.toLower := by
  rw [Char.toLower]
  split
  · next capital =>
    have bound : c.val.toNat ≤ 90 := capital.2
    have offset : ('a'.val - 'A'.val).toNat = 32 := rfl
    rw [Char.le_def, UInt32.le_iff_toNat_le, UInt32.toNat_add, offset, Nat.mod_eq_of_lt (by omega)]
    exact Nat.le_add_right _ _
  · exact Char.le_refl c

theorem not_lowered_lt (text : Text) : ¬ lowered text < text := by
  induction text with
  | nil => exact List.not_lt_nil _
  | cons c rest ih =>
    intro less
    rcases List.cons_lt_cons_iff.mp less with first | ⟨_, later⟩
    · exact Char.not_lt.mpr (le_toLower c) first
    · exact ih later

end Text

namespace Entries

variable {α : Type} {entries : Entries α} {name : Text} {value : α}

/-- The value of the last entry whose key is a name in any letters. -/
def lastSpelled (name : Text) : Entries α → Option α
  | [] => none
  | (key, value) :: rest =>
    (lastSpelled name rest).or (if Text.lowered key = name then some value else none)

theorem lastSpelled_eq_none (other : ∀ key ∈ entries.keys, Text.lowered key ≠ name) :
    lastSpelled name entries = none := by
  induction entries with
  | nil => rfl
  | cons entry rest ih =>
    rw [keys, List.map_cons, List.forall_mem_cons] at other
    rw [lastSpelled, ih other.2, if_neg other.1, Option.or_none]

/-- Among ascending keys, a name in small letters comes after all its other spellings. -/
theorem lastSpelled_of_get? (ascending : entries.keys.Pairwise (· < ·)) (small : Text.lowered name = name)
    (found : entries.get? name = some value) : lastSpelled name entries = some value := by
  induction entries with
  | nil => cases found
  | cons entry rest ih =>
    obtain ⟨key, current⟩ := entry
    rw [keys, List.map_cons, List.pairwise_cons] at ascending
    rw [get?] at found
    rw [lastSpelled]
    split at found
    · next same =>
      cases found
      have nothing : lastSpelled name rest = none := by
        refine lastSpelled_eq_none fun later member spelled => Text.not_lowered_lt later ?_
        rw [spelled, ← same]
        exact ascending.1 later member
      rw [nothing, Option.none_or, same, if_pos small]
    · rw [ih ascending.2 found, Option.some_or]

end Entries

namespace Markup.ElementData

variable {data : ElementData} {name : Text}

/-- Of several spellings of a name, the last one gives the value. -/
theorem get?_setAttributes (plain : name ∉ foldedNames) (attributes : List (Text × Text)) :
    (data.setAttributes attributes).attributes.get? name =
      (Entries.lastSpelled name attributes).or (data.attributes.get? name) := by
  induction attributes generalizing data with
  | nil => rfl
  | cons first rest ih =>
    obtain ⟨key, value⟩ := first
    rw [setAttributes_cons, ih, Entries.lastSpelled, Option.or_assoc]
    congr 1
    by_cases same : Text.lowered key = name
    · have notClass : Text.lowered key ≠ "class".toList := fun folded =>
        plain (same ▸ folded ▸ List.mem_cons_self)
      have notStyle : Text.lowered key ≠ "style".toList := fun folded =>
        plain (same ▸ folded ▸ List.mem_cons_of_mem _ List.mem_cons_self)
      rw [if_pos same, Option.some_or, setAttribute, if_neg notClass, if_neg notStyle, same]
      exact Entries.get?_put_self name value _
    · rw [if_neg same, Option.none_or, get?_setAttribute_of_ne same]

end Markup.ElementData

/-! ## Meta tags in a page -/

/-- Whether a text starts with a meta tag for the viewport. -/
def describesViewport (text : Text) : Bool :=
  match readStartTag text with
  | some (tag, written, _) =>
    tag = "meta".toList ∧ Entries.get? "name".toList written = some "viewport".toList
  | none => false

theorem escapeAttribute_eq_viewport_iff {value : Text} :
    escapeAttribute value = "viewport".toList ↔ value = "viewport".toList := by
  have plain : escapeAttribute "viewport".toList = "viewport".toList := by decide
  refine ⟨fun same => ?_, fun same => same ▸ plain⟩
  have closed : escapeAttribute value ++ '"' :: [] = escapeAttribute "viewport".toList ++ '"' :: [] := by
    rw [same, plain]
  exact (escapeAttribute_append_inj closed).1

/-- An element is written as a meta tag for the viewport exactly if it is one. -/
theorem describesViewport_element {data : ElementData} (formed : data.WellFormed) (children : List Tree) :
    describesViewport (Tree.element data children).markup = true ↔ data.tag = "meta".toList ∧
      data.attributes.get? "name".toList = some "viewport".toList := by
  obtain ⟨rest, written⟩ := Tree.exists_markup_eq data children
  have plain : "name".toList ∉ foldedNames := by decide
  rw [describesViewport, written,
    readStartTag_written formed.tag formed.smallTag formed.isWrittenName_foldedAttributes rest]
  dsimp only
  rw [decide_eq_true_iff, Entries.get?_map, ElementData.get?_foldedAttributes plain,
    Option.map_eq_some_iff]
  simp only [escapeAttribute_eq_viewport_iff, exists_eq_right]

theorem describesViewport_metaText {tag : List (Text × Text)}
    (valid : ∀ pair ∈ tag, isAttributeName pair.1 = true) :
    describesViewport (metaText tag) = true ↔
      Entries.lastSpelled "name".toList tag = some "viewport".toList := by
  have formed := @ElementData.wellFormed_named "meta".toList (by decide) (by decide)
  have void : isVoidElement "meta".toList = true := by decide
  rw [metaText, ← Tree.markup_leaf_void void, Tree.leaf,
    describesViewport_element (formed.setAttributes valid), ElementData.tag_setAttributes,
    ElementData.get?_setAttributes (by decide)]
  have nothing : Entries.get? "name".toList (ElementData.attributes { tag := "meta".toList }) = none := rfl
  rw [nothing, Option.or_none]
  exact and_iff_right rfl

/-- Elements other than meta tags say nothing of the viewport. -/
theorem describesViewport_leaf {tag : Text} {attributes : List (Text × Text)}
    (validTag : isTagName tag = true) (small : Text.lowered tag = tag)
    (other : tag ≠ "meta".toList) (valid : ∀ pair ∈ attributes, isAttributeName pair.1 = true) :
    describesViewport (Tree.leaf tag attributes).markup = false := by
  have formed := (ElementData.wellFormed_named validTag small).setAttributes valid
  rw [Tree.leaf, Bool.eq_false_iff, Ne, describesViewport_element formed, ElementData.tag_setAttributes]
  exact fun describes => other describes.1

theorem describesViewport_filled {tag content : Text} (validTag : isTagName tag = true)
    (small : Text.lowered tag = tag) (other : tag ≠ "meta".toList) :
    describesViewport (Tree.filled { tag } content).markup = false := by
  rw [Tree.filled, Bool.eq_false_iff, Ne,
    describesViewport_element (ElementData.wellFormed_named validTag small)]
  exact fun describes => other describes.1

/-- The viewport is described by what is added for it and by meta tags from the settings, and by nothing else
in a head. -/
theorem filter_headTexts (config : EngineConfig) (sheet : Stylesheet) (head : HeadConfig)
    (added : List Text) :
    (headTexts config sheet head added).filter describesViewport =
      added.filter describesViewport ++ (head.metaTags.map metaText).filter describesViewport := by
  have charset : describesViewport "<meta charset=\"utf-8\">".toList = false := by decide
  have title (content : Text) :
      describesViewport (Tree.filled { tag := "title".toList } content).markup = false :=
    describesViewport_filled (by decide) (by decide) (by decide)
  have style (content : Text) :
      describesViewport (Tree.filled { tag := "style".toList } content).markup = false :=
    describesViewport_filled (by decide) (by decide) (by decide)
  have scripts : (head.scripts.map scriptTagText).filter describesViewport = [] := by
    rw [List.filter_eq_nil_iff, List.forall_mem_map]
    intro source _
    rw [← Tree.markup_script_leaf,
      describesViewport_leaf (by decide) (by decide) (by decide) (Building.source_valid source)]
    exact Bool.false_ne_true
  have links (relation : Text) (references : List Text) :
      (references.map (linkText relation)).filter describesViewport = [] := by
    rw [List.filter_eq_nil_iff, List.forall_mem_map]
    intro reference _
    rw [← Tree.markup_link_leaf, describesViewport_leaf (by decide) (by decide) (by decide)
      (Building.linkAttributes_valid relation reference)]
    exact Bool.false_ne_true
  simp only [headTexts, List.filter_append, List.filter_cons, List.filter_nil, charset, title, style, scripts,
    links, Bool.false_eq_true, if_false, List.append_nil, List.nil_append]

theorem HeadConfig.hasViewport_iff (head : HeadConfig) : head.hasViewport = true ↔
    ∃ tag ∈ head.metaTags, Entries.get? "name".toList tag = some "viewport".toList := by
  simp only [hasViewport, List.any_eq_true, decide_eq_true_iff]

/-! ## Renders -/

namespace Engine

variable {engine after : Engine} {users : NodeId → Prop} {mount : List Element} {head : HeadConfig}
  {page : Text}

/-- Whether a page that was rendered has a head of some texts, as long as the head is in the page at all. -/
def HeadShows (after : Engine) (texts : List Text) (page : Text) : Prop :=
  ∃ shell data, after.shell = some shell ∧ data.tag = "head".toList ∧
    after.document.markup shell.head = Tree.startTag data ++ texts.flatten ++ Tree.endTag "head".toList ∧
    (after.document.Below shell.head shell.html → after.document.markup shell.head <:+: page)

/-- The head of a page is written as the settings ask for it. -/
theorem Guards.headShows (guards : engine.Guards users)
    (given : ∀ root ∈ mount, engine.owns root = true → users root.node)
    (run : Action.tryRender mount head engine = .ok page after) :
    head.NamesValid ∧ after.HeadShows (headTexts engine.config engine.buffers.styles head
      (if head.hasViewport then [] else [defaultViewportText])) page := by
  obtain ⟨valid, forest, shell, data, known, written, found, tag, trees⟩ :=
    guards.head_of_tryRender given run
  have fillable : isVoidElement data.tag = false := by rw [tag]; decide
  have markup := Document.markup_of_tree? (forest.tree?_element found)
  rw [trees, Tree.markup_element fillable, tag, Tree.markupAll_elements _ (headTrees_elements _ _ _),
    List.flatMap_def, map_markup_headTrees] at markup
  refine ⟨valid, shell, data, known, tag, markup, fun below => ?_⟩
  have inPage : after.document.markup shell.html <:+ page := by
    subst written
    exact List.suffix_append _ _
  exact (forest.markup_infix found below).trans inPage.isInfix

section New

variable {uid : Nat} {config : EngineConfig} {entropy : UInt64} {turns : List Turn} {held : Held}

/-- Wherever a caller has brought an engine, a page gets the default viewport exactly if no meta tag gives one
under the name in small letters. In the page the viewport is described by the default, if it was added, by the
meta tags whose last spelling of the name gives it, and by nothing else in the head. So the default is there
exactly if no meta tag in the page describes the viewport, unless one does that by another spelling and none
by small letters: then there are both. -/
theorem Tour.viewport_added_iff (tour : (Engine.new uid config entropy).Tour turns engine held)
    (given : ∀ root ∈ mount, root ∈ held.elements)
    (ascending : ∀ tag ∈ head.metaTags, (Entries.keys tag).Pairwise (· < ·))
    (run : Action.tryRender mount head engine = .ok page after) :
    ∃ added, let texts := headTexts engine.config engine.buffers.styles head added
      after.HeadShows texts page ∧
      (engine.IsWhole → ∀ shell, after.shell = some shell →
        after.document.Below shell.head shell.html) ∧
      (added = [] ∨ added = [defaultViewportText]) ∧
      texts.filter describesViewport = added ++ (head.metaTags.map metaText).filter describesViewport ∧
      (∀ tag ∈ head.metaTags, describesViewport (metaText tag) = true ↔
        Entries.lastSpelled "name".toList tag = some "viewport".toList) ∧
      (added = [] ↔ ∃ tag ∈ head.metaTags, Entries.get? "name".toList tag = some "viewport".toList) ∧
      ((added = [defaultViewportText] ↔
          ∀ tag ∈ head.metaTags, describesViewport (metaText tag) = false) ↔
        ((∃ tag ∈ head.metaTags, Entries.lastSpelled "name".toList tag = some "viewport".toList) →
          ∃ tag ∈ head.metaTags, Entries.get? "name".toList tag = some "viewport".toList)) := by
  obtain ⟨users, guards, known⟩ := tour.guards
  have userRoots : ∀ root ∈ mount, engine.owns root = true → users root.node :=
    fun root member => known root (given root member)
  obtain ⟨valid, shows⟩ := guards.headShows userRoots run
  have written : ∀ tag ∈ head.metaTags, describesViewport (metaText tag) = true ↔
      Entries.lastSpelled "name".toList tag = some "viewport".toList :=
    fun tag member => describesViewport_metaText (valid tag member)
  have standard : describesViewport defaultViewportText = true := by decide
  refine ⟨_, shows, fun whole shell shellKnown => ?_, ?_, ?_, written, ?_, ?_⟩
  · have wholeAfter := guards.isWhole_tryRender whole userRoots head
    rw [Action.leaves, run] at wholeAfter
    obtain ⟨_, forest, _⟩ := guards.head_of_tryRender userRoots run
    exact Document.below_of_parent? ((wholeAfter shell shellKnown).parent_head forest)
  · split
    · exact Or.inl rfl
    · exact Or.inr rfl
  · rw [filter_headTexts]
    congr 1
    split
    · rfl
    · rw [List.filter_singleton, standard]
      rfl
  · rw [← head.hasViewport_iff]
    split
    · next named => exact iff_of_true rfl named
    · next unnamed => exact iff_of_false (List.cons_ne_nil _ _) unnamed
  · have spelled (named : ∃ tag ∈ head.metaTags, Entries.get? "name".toList tag = some "viewport".toList) :
        ∃ tag ∈ head.metaTags, Entries.lastSpelled "name".toList tag = some "viewport".toList := by
      obtain ⟨tag, member, found⟩ := named
      exact ⟨tag, member, Entries.lastSpelled_of_get? (ascending tag member) (by decide) found⟩
    have undescribed : (∀ tag ∈ head.metaTags, describesViewport (metaText tag) = false) ↔
        ¬ ∃ tag ∈ head.metaTags, Entries.lastSpelled "name".toList tag = some "viewport".toList := by
      simp only [not_exists, not_and]
      exact forall₂_congr fun tag member => by rw [← written tag member, Bool.not_eq_true]
    rw [undescribed, ← head.hasViewport_iff]
    rw [← head.hasViewport_iff] at spelled
    split
    · next named =>
      have unlike : [] ≠ [defaultViewportText] := (List.cons_ne_nil _ _).symm
      exact iff_of_true (iff_of_false unlike (not_not_intro (spelled named))) fun _ => named
    · next unnamed =>
      exact ⟨fun same described => absurd described (same.mp rfl),
        fun only => iff_of_true rfl fun described => unnamed (only described)⟩

end New

/-- Whether a render with some settings of the head gives a page with some property. -/
def rendersWith (head : HeadConfig) (mount : List Element) (holds : Text → Bool) (engine : Engine) : Bool :=
  match Action.tryRender mount head engine with
  | .ok page _ => holds page
  | .error _ _ => false

theorem exists_page_of_rendersWith {holds : Text → Bool}
    (renders : engine.rendersWith head mount holds = true) :
    ∃ page after, Action.tryRender mount head engine = .ok page after ∧ holds page = true := by
  rw [rendersWith] at renders
  split at renders
  · next page after run => exact ⟨page, after, run, renders⟩
  · cases renders

/-- A second page has a viewport of its own, and not the default one, which the first page has. -/
theorem viewport_added_iff_secondPage :
    let head : HeadConfig :=
      { metaTags := [[("content".toList, "width=1".toList), ("name".toList, "viewport".toList)]] }
    ∃ turns engine held page after, (Engine.new 0 {} 7).Tour turns engine held ∧ engine.shell.isSome ∧
      Action.tryRender held.elements head engine = .ok page after ∧
      after.HeadShows (headTexts engine.config engine.buffers.styles head []) page := by
  intro head
  obtain ⟨turns, engine, held, tour, shown, renders⟩ :
      ∃ turns engine held, (Engine.new 0 {} 7).Tour turns engine held ∧ engine.shell.isSome ∧
        (engine.rendersWith head held.elements fun _ => true) = true := by
    have start : (Engine.new 0 {} 7).Tour [] (Engine.new 0 {} 7) {} := .opened
    obtain ⟨turns, _, tour⟩ := start.performsAll [.createElement "p".toList, .tryRender [0] {}]
    exact ⟨_, _, _, tour, by decide +kernel⟩
  obtain ⟨page, after, run, _⟩ := exists_page_of_rendersWith renders
  have ascending : ∀ tag ∈ head.metaTags, (Entries.keys tag).Pairwise (· < ·) := by decide
  obtain ⟨added, shows, _, _, _, _, nothing, _⟩ :=
    tour.viewport_added_iff (fun _ member => member) ascending run
  have named : ∃ tag ∈ head.metaTags, Entries.get? "name".toList tag = some "viewport".toList := by decide
  rw [nothing.mpr named] at shows
  exact ⟨turns, engine, held, page, after, tour, shown, run, shows⟩

/-- A page with a viewport whose name has a capital in the settings has the default one, too. -/
theorem viewport_can_be_doubled :
    let head : HeadConfig :=
      { metaTags := [[("Name".toList, "viewport".toList), ("content".toList, "width=1".toList)]] }
    let given := "<meta name=\"viewport\" content=\"width=1\">".toList
    head.metaTags.map metaText = [given] ∧ describesViewport given = true ∧
      ∃ turns engine held page after, (Engine.new 0 {} 7).Tour turns engine held ∧
        Action.tryRender held.elements head engine = .ok page after ∧
        defaultViewportText ++ given <:+: page := by
  intro head given
  obtain ⟨turns, engine, held, tour, renders⟩ :
      ∃ turns engine held, (Engine.new 0 {} 7).Tour turns engine held ∧
        (engine.rendersWith head held.elements (Text.occursIn (defaultViewportText ++ given))) = true := by
    have start : (Engine.new 0 {} 7).Tour [] (Engine.new 0 {} 7) {} := .opened
    obtain ⟨turns, _, tour⟩ := start.performsAll [.createElement "p".toList]
    exact ⟨_, _, _, tour, by decide +kernel⟩
  obtain ⟨page, after, run, both⟩ := exists_page_of_rendersWith renders
  exact ⟨by decide, by decide, turns, engine, held, page, after, tour, run, Text.occursIn_iff.mp both⟩

end Engine

end PageCompiler
