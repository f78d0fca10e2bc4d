import PageCompiler.Preview.Site
import PageCompiler.Proofs.Blueprint.Pages
import PageCompiler.Proofs.Text

/-!
# Pages that reload themselves

The reload client is put right before the end of a page, whatever stands before that end, and it stands there
once, since it cannot overlap with itself. A page that holds the route of the reload connection is taken for
one that has its client already. So a page that only mentions the route gets none.
-/

namespace PageCompiler

/-- What every page ends with. -/
def pageEnd : Text :=
  "</body></html>".toList

theorem pageEnd_suffix_pageText (config : EngineConfig) (buffers : Buffers) (head : HeadConfig)
    (roots : List Text) : pageEnd <:+ pageText config buffers head roots := by
  have closing : pageEnd <:+ "</script></body></html>".toList := ⟨"</script>".toList, rfl⟩
  exact closing.trans (List.suffix_append _ _)

namespace PageFile

variable {page : Text} {after : Engine} {entropy : UInt64}

theorem pageEnd_suffix_of_render {blueprint : Blueprint}
    (rendered : render blueprint entropy = .ok (page, after)) : pageEnd <:+ page := by
  unfold render at rendered
  split at rendered
  · cases rendered
  · next roots built buildRun =>
    split at rendered
    · cases rendered
    · next renderRun =>
      cases rendered
      have run : blueprint.buildAndRender (blueprint.engine entropy) = .ok page after :=
        Steps.bind_run_eq_ok.mpr ⟨roots, built, buildRun, renderRun⟩
      rw [Blueprint.text_of_buildAndRender blueprint (Engine.Sound.new 0 _ entropy) run]
      exact pageEnd_suffix_pageText _ _ _ _

theorem pageEnd_suffix_of_compile {path : Path} {content : Except FileError Text} {minify : Bool}
    (compiled : compile path content minify entropy = .ok (page, after)) : pageEnd <:+ page := by
  unfold compile at compiled
  cases read : readBlueprint content with
  | error cause =>
    rw [read] at compiled
    cases compiled
  | ok blueprint =>
    rw [read] at compiled
    cases rendered : render (withMinified blueprint minify) entropy with
    | error cause =>
      simp only [bind, Except.bind, rendered] at compiled
      cases compiled
    | ok result =>
      simp only [bind, Except.bind, rendered] at compiled
      cases compiled
      exact pageEnd_suffix_of_render rendered

end PageFile

namespace Preview

variable {page start : Text}

/-! ## The reload client -/

theorem reloadRoute_infix_reloadClient : reloadRoute <:+: reloadClient := by
  unfold reloadClient
  -- The client is put together from its parts, and the route is one of them.
  iterate 5 refine List.IsInfix.trans ?_ (List.prefix_append _ _).isInfix
  exact (List.suffix_append _ _).isInfix

theorem unbordered_reloadClient : reloadClient.Unbordered := by
  intro border starts ends
  have apart : ∀ border ∈ reloadClient.tails,
      border.isPrefixOf reloadClient = true → border = [] ∨ border = reloadClient := by
    decide +kernel
  exact apart border ((List.mem_tails border reloadClient).mpr ends) (List.isPrefixOf_iff_prefix.mpr starts)

theorem injectReload_of_mentioned (mentioned : reloadRoute <:+: page) : injectReload page = page :=
  if_pos (Text.occursIn_iff.mpr mentioned)

/-- A page that does not mention the route gets the client right before its end. -/
theorem injectReload_of_unmentioned (unmentioned : ¬reloadRoute <:+: start ++ pageEnd) :
    injectReload (start ++ pageEnd) = start ++ (reloadClient ++ pageEnd) := by
  have last : Text.cutBeforeLast "</body>".toList pageEnd = some ([], pageEnd) := rfl
  rw [injectReload, if_neg (mt Text.occursIn_iff.mp unmentioned), Text.cutBeforeLast_append last,
    List.append_nil]
  exact List.append_assoc _ _ _

theorem mentioned_injectReload (page : Text) : reloadRoute <:+: injectReload page := by
  unfold injectReload
  split
  · next mentioned => exact Text.occursIn_iff.mp mentioned
  · split
    · exact reloadRoute_infix_reloadClient.trans (List.infix_append _ _ _)
    · exact reloadRoute_infix_reloadClient.trans (List.suffix_append _ _).isInfix

theorem injectReload_idem (page : Text) : injectReload (injectReload page) = injectReload page :=
  injectReload_of_mentioned (mentioned_injectReload page)

/-- A page is answered with the reload client in it once, right before its end, and without the client the
answer is the page. -/
def ReloadsOnce (page answered : Text) : Prop :=
  ∃ start, page = start ++ pageEnd ∧ answered = start ++ (reloadClient ++ pageEnd) ∧
    ∀ before after, answered = before ++ (reloadClient ++ after) → before = start

theorem not_reloadsOnce_self (page : Text) : ¬ReloadsOnce page page := by
  rintro ⟨start, shown, answered, _⟩
  rw [shown, List.append_cancel_left_eq] at answered
  have none : reloadClient = [] := List.append_left_eq_self.mp answered.symm
  have routeless : reloadRoute = [] := List.infix_nil.mp (none ▸ reloadRoute_infix_reloadClient)
  cases routeless

theorem reloadsOnce_injectReload_iff (closes : pageEnd <:+ page) :
    ReloadsOnce page (injectReload page) ↔ ¬reloadRoute <:+: page := by
  constructor
  · intro once mentioned
    rw [injectReload_of_mentioned mentioned] at once
    exact not_reloadsOnce_self page once
  · intro unmentioned
    obtain ⟨start, rfl⟩ := closes
    rw [injectReload_of_unmentioned unmentioned]
    refine ⟨start, rfl, rfl, fun before after same => ?_⟩
    have startFree : ¬reloadClient <:+: start := fun held =>
      unmentioned ((reloadRoute_infix_reloadClient.trans held).trans (List.prefix_append _ _).isInfix)
    have endFree : ¬reloadClient <:+: pageEnd := fun held =>
      unmentioned ((reloadRoute_infix_reloadClient.trans held).trans (List.suffix_append _ _).isInfix)
    exact unbordered_reloadClient.once startFree endFree same

theorem pageEnd_suffix_errorPage (message : Text) : pageEnd <:+ errorPage message := by
  have closing : pageEnd <:+ "</pre></body></html>".toList := ⟨"</pre>".toList, rfl⟩
  exact closing.trans (List.suffix_append _ _)

/-! ## Answers -/

namespace Site

/-- A page as a site shows it, with its status. -/
structure Shown where
  status : Nat
  page : Text

/-- What a site shows: the compiled page, or why it could not be compiled. -/
def shown (site : Site) (files : FileTree) (here : List Text) (entropy : UInt64) : Shown :=
  match PageFile.compile site.page (files.read here site.page) false entropy with
  | .ok (page, _) => ⟨200, page⟩
  | .error cause => ⟨500, errorPage cause.message⟩

theorem pageEnd_suffix_shown (site : Site) (files : FileTree) (here : List Text) (entropy : UInt64) :
    pageEnd <:+ (site.shown files here entropy).page := by
  unfold shown
  split
  · next compiled => exact PageFile.pageEnd_suffix_of_compile compiled
  · exact pageEnd_suffix_errorPage _

theorem pageResponse_live (site : Site) (files : FileTree) (here : List Text) (entropy : UInt64)
    (live : site.liveReload = true) :
    site.pageResponse files here entropy =
      ⟨(site.shown files here entropy).status, pageType,
        injectReload (site.shown files here entropy).page⟩ := by
  unfold pageResponse shown
  rw [live]
  cases PageFile.compile site.page (files.read here site.page) false entropy <;> rfl

theorem not_reloadsOnce_of_mentioned (site : Site) (files : FileTree) (here : List Text) (entropy : UInt64)
    (live : site.liveReload = true) (mentioned : reloadRoute <:+: (site.shown files here entropy).page) :
    ¬ReloadsOnce (site.shown files here entropy).page (site.pageResponse files here entropy).body := by
  rw [site.pageResponse_live files here entropy live, injectReload_of_mentioned mentioned]
  exact not_reloadsOnce_self _

/-- The page of a site that reloads, compiled or not, is answered with the reload client in it once, right
before its end, exactly if the route of the reload connection is not mentioned in the page. A page that
mentions it is answered as it is. This holds of errors in any words, and a page that was given the client is
not given another one. -/
theorem reloadsOnce_iff (site : Site) (files : FileTree) (here : List Text) (entropy : UInt64)
    (live : site.liveReload = true) :
    let shown := site.shown files here entropy
    let response := site.pageResponse files here entropy
    (response.status = shown.status ∧ response.contentType = pageType ∧
      (ReloadsOnce shown.page response.body ↔ ¬reloadRoute <:+: shown.page) ∧
      (reloadRoute <:+: shown.page → response.body = shown.page) ∧
      injectReload response.body = response.body) ∧
    (∀ message, ReloadsOnce (errorPage message) (injectReload (errorPage message)) ↔
      ¬reloadRoute <:+: errorPage message) ∧
    ∀ page, injectReload (injectReload page) = injectReload page := by
  intro shown response
  have same : response = ⟨shown.status, pageType, injectReload shown.page⟩ :=
    site.pageResponse_live files here entropy live
  rw [same]
  refine ⟨⟨rfl, rfl, ?_, injectReload_of_mentioned, injectReload_idem _⟩, fun message => ?_, injectReload_idem⟩
  · exact reloadsOnce_injectReload_iff (site.pageEnd_suffix_shown files here entropy)
  · exact reloadsOnce_injectReload_iff (pageEnd_suffix_errorPage message)

/-- That there is no page is told on a page that reloads. -/
theorem reloadsOnce_missing_page :
    let site : Site := ⟨"</body>.json".toList, ".".toList, true⟩
    (site.shown .empty [] 0).status = 500 ∧
      ReloadsOnce (site.shown .empty [] 0).page (site.pageResponse .empty [] 0).body := by
  intro site
  have failed : (site.shown .empty [] 0).status = 500 := rfl
  have noLine : '_' ∉ (site.shown .empty [] 0).page := by decide
  obtain ⟨⟨_, _, once, _, _⟩, _, _⟩ := reloadsOnce_iff site .empty [] 0 rfl
  exact ⟨failed, once.mpr fun mentioned => noLine (mentioned.subset (by decide))⟩

/-- A page that is a paragraph about the route of the reload connection. -/
def routePage : FileTree :=
  .directory [("index.json".toList, .file (some
    ("\x7b\"config\":\x7b\"ids\":\x7b\"seed\":1\x7d\x7d,".toList ++
      "\"body\":\x7b\"tag\":\"p\",\"text\":\"/__sitecraft_ws\"\x7d\x7d".toList)))]

/-- A page that only writes about the route gets no client. -/
theorem not_reloadsOnce_mentioned_route :
    let site : Site := ⟨"index.json".toList, ".".toList, true⟩
    (site.shown routePage [] 0).status = 200 ∧
      ¬ReloadsOnce (site.shown routePage [] 0).page (site.pageResponse routePage [] 0).body := by
  intro site
  have compiled : (site.shown routePage [] 0).status = 200 := by decide +kernel
  have mentioned : Text.occursIn reloadRoute (site.shown routePage [] 0).page = true := by decide +kernel
  exact ⟨compiled, site.not_reloadsOnce_of_mentioned routePage [] 0 rfl (Text.occursIn_iff.mp mentioned)⟩

end Site

end Preview

end PageCompiler
