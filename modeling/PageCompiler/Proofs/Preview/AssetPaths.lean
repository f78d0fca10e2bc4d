import PageCompiler.Preview
import PageCompiler.Proofs.Text

/-!
# Paths of assets

A path that is joined to a directory is followed from that directory on, as long as it does not begin with
a separator or a single point. A request path is joined only if all it does is go down, so what it leads
to is below the directory, and none that only goes down is refused.
-/

namespace PageCompiler

namespace Path

variable {directory path : Path} {piece : Text}

/-- The pieces of a path between its separators. -/
def pieces (path : Path) : List Text :=
  Text.segments (· = '/') path

/-- The pieces that lead somewhere. Repeated and trailing separators and single points do not. -/
def steps (path : Path) : List Text :=
  path.pieces.filter fun piece => piece ≠ [] && piece ≠ ['.']

theorem pieces_append_separator (directory path : Path) :
    pieces (directory ++ '/' :: path) = directory.pieces ++ path.pieces :=
  Text.segments_append_break rfl directory path

theorem laterComponent_of_step (filled : piece ≠ []) (leads : piece ≠ ['.']) :
    laterComponent piece = some (if piece = ['.', '.'] then .up else .name piece) := by
  rw [laterComponent, if_neg (by simp [filled, leads])]
  split <;> rfl

theorem laterComponents_eq (pieces : List Text) :
    pieces.filterMap laterComponent =
      (pieces.filter fun piece => piece ≠ [] && piece ≠ ['.']).map fun piece =>
        if piece = ['.', '.'] then .up else .name piece := by
  induction pieces with
  | nil => rfl
  | cons piece rest ih =>
    by_cases leads : piece ≠ [] ∧ piece ≠ ['.']
    · rw [List.filterMap_cons_some (laterComponent_of_step leads.1 leads.2),
        List.filter_cons_of_pos (by simpa using leads), List.map_cons, ih]
    · have nothing : laterComponent piece = none := by
        rw [laterComponent, if_pos]
        simp only [Bool.or_eq_true, List.isEmpty_iff, decide_eq_true_eq]
        tauto
      rw [List.filterMap_cons_none nothing, List.filter_cons_of_neg (by simpa using leads), ih]

/-- The components of a path that begins with a separator. -/
theorem components_separator (path : Path) :
    components ('/' :: path) = .root :: path.pieces.filterMap laterComponent :=
  rfl

/-- The components of any other path. Only its first piece may be a single point that counts. -/
theorem components_relative (relative : path.head? ≠ some '/') {first : Text} {rest : List Text}
    (same : path.pieces = first :: rest) :
    path.components =
      (if first = ['.'] then [.here] else (laterComponent first).toList) ++
        rest.filterMap laterComponent := by
  rw [pieces] at same
  rw [components, same]
  rintro rest rfl
  exact relative rfl

theorem exists_pieces (path : Path) : ∃ first rest, path.pieces = first :: rest :=
  List.exists_cons_of_ne_nil (Text.segments_ne_nil _ path)

/-- The components of a path that begins with neither a separator nor a single point. -/
theorem components_of_plain (relative : path.head? ≠ some '/') (plain : path.pieces.head? ≠ some ['.']) :
    path.components = path.pieces.filterMap laterComponent := by
  obtain ⟨first, rest, same⟩ := exists_pieces path
  rw [same, List.head?_cons, ne_eq, Option.some.injEq] at plain
  rw [components_relative relative same, if_neg plain, same, List.filterMap_cons]
  cases laterComponent first <;> rfl

/-- A path that begins with a single point has that as a component. -/
theorem here_mem_components (relative : path.head? ≠ some '/') (point : path.pieces.head? = some ['.']) :
    .here ∈ path.components := by
  obtain ⟨first, rest, same⟩ := exists_pieces path
  rw [same, List.head?_cons, Option.some.injEq] at point
  rw [components_relative relative same, if_pos point]
  exact List.mem_cons_self

/-- What follows a separator adds its components. -/
theorem components_append_separator (filled : directory ≠ []) (path : Path) :
    components (directory ++ '/' :: path) =
      directory.components ++ path.pieces.filterMap laterComponent := by
  obtain ⟨c, rest, rfl⟩ := List.exists_cons_of_ne_nil filled
  by_cases separator : c = '/'
  · subst separator
    rw [List.cons_append, components_separator, components_separator, pieces_append_separator,
      List.filterMap_append, List.cons_append]
  · have relative (others : Text) : (c :: others).head? ≠ some '/' :=
      fun same => separator (Option.some.inj same)
    obtain ⟨first, others, same⟩ := exists_pieces (c :: rest)
    have cut := pieces_append_separator (c :: rest) path
    rw [same, List.cons_append, List.cons_append] at cut
    rw [List.cons_append, components_relative (relative _) cut, components_relative (relative _) same,
      List.filterMap_append, List.append_assoc]

/-- A path without a separator at its start is put behind the one that ends the directory, or behind a new
one. -/
theorem exists_join_eq (filled : directory ≠ []) (relative : path.head? ≠ some '/') :
    ∃ front, directory.join path = front ++ '/' :: path ∧ (front = directory ∨ front ++ ['/'] = directory) := by
  unfold join
  rw [if_neg relative]
  split
  · next ended =>
    rw [Bool.or_eq_true, List.isEmpty_iff, decide_eq_true_eq] at ended
    obtain ⟨front, rfl⟩ := List.getLast?_eq_some_iff.mp (ended.resolve_left filled)
    exact ⟨front, List.append_assoc _ _ _, Or.inr rfl⟩
  · exact ⟨directory, rfl, Or.inl rfl⟩

/-- A path that begins with neither a separator nor a single point adds its components. -/
theorem components_join (directory : Path) (relative : path.head? ≠ some '/')
    (plain : path.pieces.head? ≠ some ['.']) :
    (directory.join path).components = directory.components ++ path.components := by
  rw [components_of_plain relative plain]
  by_cases filled : directory = []
  · subst filled
    unfold join
    rw [if_neg relative]
    exact components_of_plain relative plain
  obtain ⟨front, joined, same⟩ := exists_join_eq filled relative
  rw [joined]
  rcases same with rfl | rfl
  · exact components_append_separator filled path
  · by_cases top : front = []
    · subst top
      rfl
    · rw [components_append_separator top, components_append_separator top, List.append_assoc]
      rfl

end Path

/-! ## Places in a tree -/

namespace FileTree

variable {tree : FileTree} {here place last : List Text} {directory path : Path}

theorem follow_append (tree : FileTree) (place : List Text) (before after : List Text) :
    follow tree place (before ++ after) =
      (follow tree place before).bind fun place => follow tree place after := by
  induction before generalizing place with
  | nil => rfl
  | cons part rest ih =>
    rw [List.cons_append, follow, follow]
    cases tree.at? place with
    | none => rfl
    | some folder =>
      cases folder with
      | file => rfl
      | directory entries =>
        dsimp only
        rw [ih, ih, apply_ite (Except.bind · _), apply_ite (Except.bind · _), apply_ite (Except.bind · _)]
        cases child? part (.directory entries) <;> simp [ih] <;> rfl

/-- Pieces none of which goes up are followed down, name by name. -/
theorem follow_down {pieces : List Text} (down : ['.', '.'] ∉ pieces)
    (leads : follow tree place pieces = .ok last) :
    last = place ++ pieces.filter fun piece => piece ≠ [] && piece ≠ ['.'] := by
  induction pieces generalizing place with
  | nil =>
    cases leads
    rw [List.filter_nil, List.append_nil]
  | cons piece rest ih =>
    rw [List.mem_cons, not_or] at down
    rw [follow] at leads
    split at leads
    · cases leads
    · cases leads
    · next folder _ _ =>
      split at leads
      · next still =>
        rw [ih down.2 leads, List.filter_cons_of_neg]
        simp only [Bool.or_eq_true, List.isEmpty_iff, decide_eq_true_eq] at still
        simp
        tauto
      · next moves =>
        rw [if_neg (Ne.symm down.1)] at leads
        split at leads
        · cases leads
        · split at leads
          · cases leads
          · rw [ih down.2 leads, List.filter_cons_of_pos, List.append_assoc, List.singleton_append]
            simp only [Bool.or_eq_true, List.isEmpty_iff, decide_eq_true_eq, not_or] at moves
            simpa using moves

/-- Where a path is followed from. -/
def start (here : List Text) (path : Path) : List Text :=
  if path.head? = some '/' then [] else here

/-- A piece between two separators leads nowhere else. -/
theorem follow_empty_cons {pieces : List Text} (filled : pieces ≠ []) :
    follow tree place ([] :: pieces) = follow tree place pieces := by
  obtain ⟨piece, rest, rfl⟩ := List.exists_cons_of_ne_nil filled
  rw [follow]
  cases known : tree.at? place with
  | none => rw [follow, known]
  | some folder =>
    cases folder with
    | file => rw [follow, known]
    | directory => rfl

/-- A path that leads somewhere is followed there piece by piece. -/
theorem follow_pieces (leads : tree.resolve here path = .ok place) :
    path ≠ [] ∧ follow tree (start here path) path.pieces = .ok place := by
  have filled : path ≠ [] := by
    rintro rfl
    cases leads
  refine ⟨filled, ?_⟩
  unfold resolve at leads
  cases possible : pathProblem path with
  | some cause =>
    rw [possible] at leads
    cases leads
  | none =>
  rw [possible] at leads
  obtain ⟨c, rest, rfl⟩ := List.exists_cons_of_ne_nil filled
  by_cases separator : c = '/'
  · subst separator
    have still : follow tree [] ([] :: Path.pieces rest) = follow tree [] (Path.pieces rest) :=
      follow_empty_cons (Text.segments_ne_nil _ rest)
    rw [start, List.head?_cons, if_pos rfl]
    exact still.trans leads
  · rw [start, List.head?_cons, if_neg fun same => separator (Option.some.inj same)]
    split at leads
    · cases leads
    · next same => exact absurd (List.cons.inj same).1 separator
    · exact leads

/-- A path that only goes down leads below the directory that it is joined to. -/
theorem resolve_join {base : List Text} (relative : path.head? ≠ some '/') (down : ['.', '.'] ∉ path.pieces)
    (directoryLeads : tree.resolve here directory = .ok base)
    (leads : tree.resolve here (directory.join path) = .ok place) : place = base ++ path.steps := by
  obtain ⟨filled, toBase⟩ := follow_pieces directoryLeads
  obtain ⟨_, toPlace⟩ := follow_pieces leads
  obtain ⟨front, joined, same⟩ := Path.exists_join_eq filled relative
  have begins : start here (front ++ '/' :: path) = start here directory := by
    have head : (front ++ '/' :: path).head? = directory.head? := by
      rcases same with rfl | rfl
      · exact List.head?_append_of_ne_nil _ filled
      · rw [List.append_cons, List.head?_append_of_ne_nil _ filled]
    rw [start, start, head]
  have toFront : follow tree (start here directory) front.pieces = .ok base := by
    rcases same with rfl | rfl
    · exact toBase
    · rw [Path.pieces_append_separator, follow_append] at toBase
      cases reached : follow tree (start here (front ++ ['/'])) front.pieces with
      | error cause =>
        rw [reached] at toBase
        cases toBase
      | ok middle =>
        rw [reached] at toBase
        have still : base = middle ++ [] := follow_down (by decide) toBase
        rw [still, List.append_nil]
  rw [joined, begins, Path.pieces_append_separator, follow_append, toFront] at toPlace
  exact follow_down down toPlace

end FileTree

namespace Preview

/-- A path whose components are all names does not begin with a separator or a single point and never goes
up. -/
theorem allNames_iff {path : Path} (relative : path.head? ≠ some '/') :
    (path.components.all fun component => match component with
        | .name _ => true
        | _ => false) = true ↔
      path.pieces.head? ≠ some ['.'] ∧ ['.', '.'] ∉ path.pieces := by
  by_cases plain : path.pieces.head? = some ['.']
  · refine iff_of_false (fun names => ?_) fun both => both.1 plain
    have name := List.all_eq_true.mp names _ (Path.here_mem_components relative plain)
    cases name
  · rw [Path.components_of_plain relative plain, Path.laterComponents_eq, List.all_map, List.all_eq_true,
      and_iff_right plain]
    constructor
    · intro names member
      have up := names ['.', '.'] (List.mem_filter.mpr ⟨member, by decide⟩)
      cases up
    · intro down piece member
      have apart : piece ≠ ['.', '.'] := by
        rintro rfl
        exact down (List.mem_of_mem_filter member)
      rw [Function.comp_apply, if_neg apart]

/-- A request is answered from the directory exactly when its path goes somewhere, does not begin with a
single point and never goes up. The path that is read then has the components of the directory, followed by
the names of the request, and leads below the place of the directory. -/
theorem assetPath?_below (root : Path) (requested : Text) :
    let asked : Path := requested.dropWhile (· = '/')
    ((∃ path, assetPath? root requested = some path) ↔
        asked.steps ≠ [] ∧ asked.pieces.head? ≠ some ['.'] ∧ ['.', '.'] ∉ asked.pieces) ∧
      ∀ path, assetPath? root requested = some path →
        path.components = root.components ++ asked.steps.map .name ∧
        ∀ tree here base place, FileTree.resolve tree here root = .ok base →
          FileTree.resolve tree here path = .ok place → place = base ++ asked.steps := by
  intro asked
  have relative : asked.head? ≠ some '/' := by
    have first := List.head?_dropWhile_not (fun c => decide (c = '/')) requested
    intro separator
    rw [show requested.dropWhile (· = '/') = asked from rfl, separator] at first
    cases first
  have names_of_down (plain : asked.pieces.head? ≠ some ['.']) (down : ['.', '.'] ∉ asked.pieces) :
      asked.components = asked.steps.map .name := by
    rw [Path.components_of_plain relative plain, Path.laterComponents_eq]
    apply List.map_congr_left
    intro piece member
    apply if_neg
    rintro rfl
    exact down (List.mem_of_mem_filter member)
  have accepted : (!asked.components.isEmpty && asked.components.all fun component => match component with
        | .name _ => true
        | _ => false) = true ↔
      asked.steps ≠ [] ∧ asked.pieces.head? ≠ some ['.'] ∧ ['.', '.'] ∉ asked.pieces := by
    rw [Bool.and_eq_true, allNames_iff relative]
    apply and_congr_left
    rintro ⟨plain, down⟩
    rw [names_of_down plain down]
    simp
  have same : assetPath? root requested =
      if asked.steps ≠ [] ∧ asked.pieces.head? ≠ some ['.'] ∧ ['.', '.'] ∉ asked.pieces then
        some (root.join asked)
      else none := if_congr accepted rfl rfl
  rw [same]
  split
  · next down =>
    refine ⟨iff_of_true ⟨_, rfl⟩ down, ?_⟩
    rintro path ⟨⟩
    refine ⟨?_, fun tree here base place => FileTree.resolve_join relative down.2.2⟩
    rw [Path.components_join root relative down.2.1, names_of_down down.2.1 down.2.2]
  · next refused =>
    refine ⟨iff_of_false ?_ refused, ?_⟩
    · rintro ⟨path, ⟨⟩⟩
    · rintro path ⟨⟩

/-- A stylesheet is found below the directory, whatever separators and points stand in the request. -/
theorem assetPath?_below_stylesheet :
    let sheet : FileTree := .directory [("site.css".toList, .file (some "p".toList))]
    let tree : FileTree := .directory [("srv".toList, .directory [("css".toList, sheet)])]
    ∃ path place, assetPath? "/srv".toList "//css/.//site.css/".toList = some path ∧
      FileTree.resolve tree [] "/srv".toList = .ok ["srv".toList] ∧
      FileTree.resolve tree [] "/srv/css/site.css".toList = .ok place ∧
      path.components = [.root, .name "srv".toList, .name "css".toList, .name "site.css".toList] ∧
      place = ["srv".toList] ++ ["css".toList, "site.css".toList] := by
  intro sheet tree
  obtain ⟨found, below⟩ := assetPath?_below "/srv".toList "//css/.//site.css/".toList
  obtain ⟨path, accepted⟩ := found.mpr (by decide)
  have plain : assetPath? "/srv".toList "css/site.css".toList = some "/srv/css/site.css".toList := by decide
  have toSheet : FileTree.resolve tree [] "/srv/css/site.css".toList =
      .ok ["srv".toList, "css".toList, "site.css".toList] := rfl
  have leads := ((assetPath?_below "/srv".toList "css/site.css".toList).2 _ plain).2 tree [] _ _ rfl toSheet
  exact ⟨path, _, accepted, rfl, toSheet, (below path accepted).1, leads⟩

end Preview

end PageCompiler
