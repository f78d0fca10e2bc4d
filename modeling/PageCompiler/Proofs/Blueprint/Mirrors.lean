import PageCompiler.Proofs.Blueprint.Elements

/-!
# Blueprints mirror themselves

From engines that are alike, a blueprint is built alike. So a sound engine that builds a blueprint stays
sound, however far the build gets, and the roots are elements of users.
-/

namespace PageCompiler

open Markup Steps

/-- Elements of the engine itself that agree. -/
def Element.Twins (uid : Nat) (pairs : NodeId → NodeId → Prop) (element other : Element) : Prop :=
  element.owner = uid ∧ element.Agree uid pairs other

namespace Element.Twins

variable {uid : Nat} {pairs wider : NodeId → NodeId → Prop} {element other : Element}

theorem pair (twins : element.Twins uid pairs other) : pairs element.node other.node :=
  twins.2.2.2 twins.1

theorem widen (twins : element.Twins uid pairs other) (widens : pairs ≤ wider) :
    element.Twins uid wider other :=
  ⟨twins.1, twins.2.widen widens⟩

end Element.Twins

/-- An element that was just created belongs to the engine. -/
theorem Mirrors.createTwins {uid : Nat} {pairs : NodeId → NodeId → Prop} (tag : Text) :
    Mirrors uid pairs (Element.Twins uid) (Action.createElement tag) (Action.createElement tag) := by
  intro wider widens first second alike
  have ends := Mirrors.createElement tag wider widens first second alike
  by_cases valid : isTagName tag = true
  · rw [Action.createElement_run valid, Action.createElement_run valid] at ends ⊢
    obtain ⟨widest, further, alikeAfter, agree⟩ := ends
    exact ⟨widest, further, alikeAfter, alike.uidFirst, agree⟩
  · rw [Action.createElement_run_invalid valid, Action.createElement_run_invalid valid] at ends ⊢
    exact ends

namespace Blueprint

variable {uid : Nat} {pairs : NodeId → NodeId → Prop}

theorem mirrors_declarations (members : List (Text × Json.Value)) :
    Mirrors uid pairs Same (declarations members) (declarations members) := by
  rw [declarations]
  cases Declarations.ofJson (.object members) with
  | ok styles => exact .result fun _ _ => rfl
  | error cause => exact .failure _ _

theorem mirrors_given {α : Type} {step otherStep : α → Action PUnit} (value : Option α)
    (mirrors : ∀ value, Mirrors uid pairs Same (step value) (otherStep value)) :
    Mirrors uid pairs Same (value.forM step) (value.forM otherStep) := by
  cases value with
  | none => exact .done
  | some value => exact mirrors value

namespace Properties

theorem mirrors_begin (properties : Properties) :
    Mirrors uid pairs (Element.Twins uid) properties.begin properties.begin := by
  rw [begin_eq]
  apply (Mirrors.createTwins properties.tag).bind
  intro created _ element other twins
  apply (mirrors_given properties.id (Mirrors.setId twins.pair)).andThen
  intro named toNamed
  have twins := twins.widen toNamed
  apply (Mirrors.loop_same properties.attributes fun wider widens (name, value) =>
    Mirrors.setAttributeOf (widens _ _ twins.pair) name value).andThen
  intro attributed toAttributed
  have twins := twins.widen toAttributed
  apply (Mirrors.addClasses twins.pair properties.classes).andThen
  intro classed toClassed
  have twins := twins.widen toClassed
  apply (mirrors_declarations properties.inlineStyle).bind
  rintro declared toDeclared styles _ rfl
  have twins := twins.widen toDeclared
  apply (Mirrors.setInlineStyle twins.pair styles).andThen
  intro styled toStyled
  have twins := twins.widen toStyled
  have classGiven : Mirrors uid styled Same (properties.giveScopedClass element)
      (properties.giveScopedClass other) := by
    rw [giveScopedClass, giveScopedClass]
    split
    · apply (mirrors_declarations properties.scopedStyle).bind
      rintro declared toDeclared styles _ rfl
      exact Mirrors.generateScopedClass (toDeclared _ _ twins.pair) styles
    · exact .done
  apply classGiven.andThen
  intro given toGiven
  have twins := twins.widen toGiven
  apply (mirrors_given properties.text (Mirrors.setText twins.pair)).andThen
  intro texted toTexted
  exact .result fun wider widens => (twins.widen toTexted).widen widens

theorem mirrors_finish (properties : Properties) {element other : Element}
    (pair : pairs element.node other.node) :
    Mirrors uid pairs Same (properties.finish element) (properties.finish other) := by
  rw [finish_eq, finish_eq]
  exact Mirrors.loop_same properties.hooks fun wider widens hook => Mirrors.change (widens _ _ pair) hook

end Properties

theorem mirrors_append {host otherHost : Element} (hostPair : pairs host.node otherHost.node)
    {child otherChild : Child} (both : List.Forall₂ (Item.Agree uid pairs) child.items otherChild.items) :
    Mirrors uid pairs Same (Action.append host child) (Action.append otherHost otherChild) := by
  apply Mirrors.appendChildren hostPair
  simpa only [Child.itemsOfAll, List.append_nil] using both

mutual

theorem mirrors_part {uid : Nat} {pairs : NodeId → NodeId → Prop} {host otherHost : Element}
    (hostPair : pairs host.node otherHost.node) (part : Part) :
    Mirrors uid pairs Same (part.build host) (part.build otherHost) := by
  cases part with
  | text content =>
    rw [Part.build, Part.build]
    apply mirrors_append hostPair
    rw [Child.items]
    split
    · exact .nil
    · exact .cons (.text content) .nil
  | element properties content =>
    rw [Part.build, Part.build]
    apply properties.mirrors_begin.bind
    intro begun toBegun element other twins
    apply (mirrors_content twins.pair content).andThen
    intro filled toFilled
    have twins := twins.widen toFilled
    apply (properties.mirrors_finish twins.pair).andThen
    intro finished toFinished
    have hostPair := toFinished _ _ (toFilled _ _ (toBegun _ _ hostPair))
    exact mirrors_append hostPair (.cons (.element (twins.widen toFinished).2) .nil)

theorem mirrors_content {uid : Nat} {pairs : NodeId → NodeId → Prop} {host otherHost : Element}
    (hostPair : pairs host.node otherHost.node) (content : List Part) :
    Mirrors uid pairs Same (buildContent host content) (buildContent otherHost content) := by
  cases content with
  | nil =>
    rw [buildContent, buildContent]
    exact .done
  | cons part rest =>
    rw [buildContent, buildContent]
    apply (mirrors_part hostPair part).andThen
    intro wider widens
    exact mirrors_content (widens _ _ hostPair) rest

end

theorem mirrors_root (root : Root) : Mirrors uid pairs (Element.Twins uid) root.build root.build := by
  rw [Root.build]
  apply root.properties.mirrors_begin.bind
  intro begun _ element other twins
  apply (mirrors_content twins.pair root.content).andThen
  intro filled toFilled
  have twins := twins.widen toFilled
  apply (root.properties.mirrors_finish twins.pair).andThen
  intro finished toFinished
  exact .result fun wider widens => (twins.widen toFinished).widen widens

theorem mirrors_roots (roots : List Root) :
    Mirrors uid pairs (fun wider => List.Forall₂ (Element.Twins uid wider)) (roots.mapM Root.build)
      (roots.mapM Root.build) := by
  induction roots generalizing pairs with
  | nil => exact .result fun _ _ => .nil
  | cons root rest ih =>
    rw [List.mapM_cons]
    apply (mirrors_root root).bind
    intro built _ element other twins
    apply ih.bind
    intro last toLast elements others all
    exact .result fun wider widens => .cons ((twins.widen toLast).widen widens)
      (all.imp fun _ _ twins => twins.widen widens)

theorem mirrors_build (page : Blueprint) :
    Mirrors uid pairs (fun wider => List.Forall₂ (Element.Twins uid wider)) page.build page.build := by
  rw [build]
  apply (Mirrors.loop_same page.state fun _ _ (key, value) =>
    (Mirrors.setState key value).andThen fun _ _ => .done).andThen
  intro stated _
  apply (Mirrors.loop_same page.styles fun _ _ rule => ?_).andThen
  · intro styled _
    apply (Mirrors.loop_same page.lifecycle fun _ _ source => Mirrors.onLoad (.body source)).andThen
    intro loaded _
    exact mirrors_roots page.body
  · apply (mirrors_declarations rule.declarations).bind
    rintro wider _ styles _ rfl
    exact Mirrors.tryDefineStyle rule.selector styles rule.raw

/-- What a sound engine builds is sound, and its roots are elements of users. -/
theorem sound_of_build {engine after : Engine} {roots : List Element} (sound : engine.Sound)
    (page : Blueprint) (run : page.build engine = .ok roots after) :
    after.Sound ∧ ∀ root ∈ roots, after.owns root = true ∧ after.IsUserNode root.node := by
  obtain ⟨wider, widens, alike, twins⟩ := (sound.continues_of_mirrors page.mirrors_build).1 run
  refine ⟨alike.soundFirst, fun root member => ?_⟩
  have twin := List.forall₂_same.mp twins root member
  have own : after.owns root = true := by
    rw [Engine.owns, twin.1, alike.uidFirst]
    exact decide_eq_true rfl
  exact ⟨own, Engine.isUserNode_of_agree alike twin.2 own⟩

end Blueprint

end PageCompiler
