import PageCompiler.Preview.Site
import PageCompiler.Proofs.Preview.AssetPaths

/-!
# Fingerprints of directories

A walk goes down a directory entry by entry and leaves out every entry whose name is not watched. What it
collects are the files on whose way from the directory no name is left out, so a report about a path wakes
the watch exactly if the walk collects a file there. The files are taken down in the order of the names on
their ways, so neither the order in which entries are listed nor the place of the directory shows.
-/

namespace PageCompiler

namespace Path

variable {name : Text} {place : List Text}

/-- A name that an entry of a directory can have. -/
structure IsName (name : Text) : Prop where
  filled : name ≠ []
  unbroken : '/' ∉ name
  notHere : name ≠ ['.']
  notUp : name ≠ ['.', '.']

instance : Decidable (IsName name) :=
  decidable_of_iff (name ≠ [] ∧ '/' ∉ name ∧ name ≠ ['.'] ∧ name ≠ ['.', '.'])
    ⟨fun ⟨filled, unbroken, notHere, notUp⟩ => ⟨filled, unbroken, notHere, notUp⟩,
      fun proper => ⟨proper.filled, proper.unbroken, proper.notHere, proper.notUp⟩⟩

/-- The path to which names lead from a directory. -/
def joinAll (directory : Path) (place : List Text) : Path :=
  place.foldl join directory

/-- The path that names are on their own. -/
def ofPlace (place : List Text) : Path :=
  List.intercalate ['/'] place

theorem IsName.head? (proper : IsName name) : name.head? ≠ some '/' :=
  fun separator => proper.unbroken (List.mem_of_head? separator)

theorem IsName.no_separator (proper : IsName name) : ∀ c ∈ name, decide (c = '/') = false := by
  intro c member
  rw [decide_eq_false_iff_not]
  rintro rfl
  exact proper.unbroken member

theorem IsName.pieces (proper : IsName name) : pieces name = [name] :=
  Text.segments_of_unbroken proper.no_separator

theorem IsName.laterComponent (proper : IsName name) : laterComponent name = some (.name name) := by
  rw [laterComponent_of_step proper.filled proper.notHere, if_neg proper.notUp]

theorem IsName.plain (proper : IsName name) : (Path.pieces name).head? ≠ some ['.'] := by
  rw [proper.pieces]
  exact fun same => proper.notHere (Option.some.inj same)

theorem IsName.components (proper : IsName name) : components name = [.name name] := by
  rw [components_of_plain proper.head? proper.plain, proper.pieces, List.filterMap_cons, proper.laterComponent]
  rfl

theorem components_join_name (directory : Path) (proper : IsName name) :
    (directory.join name).components = directory.components ++ [.name name] := by
  rw [components_join directory proper.head? proper.plain, proper.components]

theorem fileName?_join_name (directory : Path) (proper : IsName name) :
    (directory.join name).fileName? = some name := by
  rw [fileName?, components_join_name directory proper, List.getLast?_concat]

theorem components_joinAll (directory : Path) (proper : ∀ name ∈ place, IsName name) :
    (directory.joinAll place).components = directory.components ++ place.map .name := by
  induction place generalizing directory with
  | nil => simp [joinAll]
  | cons name place ih =>
    obtain ⟨first, others⟩ := List.forall_mem_cons.mp proper
    have later := ih (directory.join name) others
    rw [components_join_name directory first] at later
    simpa [joinAll] using later

theorem filterMap_laterComponent (proper : ∀ name ∈ place, IsName name) :
    place.filterMap Path.laterComponent = place.map .name := by
  induction place with
  | nil => rfl
  | cons name place ih =>
    obtain ⟨first, others⟩ := List.forall_mem_cons.mp proper
    rw [List.filterMap_cons, first.laterComponent, ih others, List.map_cons]

theorem pieces_ofPlace (proper : ∀ name ∈ place, IsName name) (filled : place ≠ []) :
    (ofPlace place).pieces = place := by
  have unbroken (name : Text) (member : name ∈ place) := (proper name member).no_separator
  obtain ⟨name, rest, rfl⟩ := List.exists_cons_of_ne_nil filled
  have cut : Text.segments (· = '/') (List.intercalate ['/'] (name :: rest)) = name :: rest.map ([] ++ ·) :=
    Text.segments_intercalate rfl (List.forall_mem_nil _) unbroken
  simpa [pieces, ofPlace] using cut

theorem components_ofPlace (proper : ∀ name ∈ place, IsName name) :
    (ofPlace place).components = place.map .name := by
  cases place with
  | nil => rfl
  | cons name rest =>
    have first := proper name (by simp)
    have whole : (ofPlace (name :: rest)).pieces = name :: rest := pieces_ofPlace proper (by simp)
    have relative : (ofPlace (name :: rest)).head? ≠ some '/' := by
      intro separator
      obtain ⟨more, same⟩ := List.head?_eq_some_iff.mp separator
      have cut := pieces_append_separator [] more
      rw [List.nil_append, ← same, whole] at cut
      exact first.filled (List.cons.inj cut).1
    have plain : (ofPlace (name :: rest)).pieces.head? ≠ some ['.'] := by
      rw [whole]
      exact fun same => first.notHere (Option.some.inj same)
    rw [components_of_plain relative plain, whole, filterMap_laterComponent proper]

theorem texts_of_names (place : List Text) : (place.map Component.name).map Component.text = place := by
  simp [Function.comp_def, Component.text]

theorem ofComponents_names (place : List Text) : ofComponents (place.map .name) = ofPlace place := by
  have named : place.map Component.name ≠ [.root] := by
    cases place <;> simp
  rw [ofComponents, if_neg named, texts_of_names, ofPlace]

theorem joinAll_inj {directory : Path} {other : List Text} (proper : ∀ name ∈ place, IsName name)
    (otherProper : ∀ name ∈ other, IsName name) (same : directory.joinAll place = directory.joinAll other) :
    place = other := by
  have components := congrArg Path.components same
  rw [components_joinAll directory proper, components_joinAll directory otherProper,
    List.append_cancel_left_eq] at components
  rw [← texts_of_names place, components, texts_of_names]

/-- What is seen from a directory of a path below it are the names that lead there. -/
theorem below?_joinAll (directory : Path) (proper : ∀ name ∈ place, IsName name) :
    directory.below? (directory.joinAll place) = some (ofPlace place) := by
  rw [below?, components_joinAll directory proper, if_pos (by simp), List.drop_left, ofComponents_names]

end Path

namespace Preview

variable {α : Type} {root : Path} {name : Text} {place : List Text} {content : Option (List α)}

theorem isIgnored_name (proper : Path.IsName name) : isIgnored name = isIgnoredName name := by
  rw [isIgnored, proper.components]
  exact Bool.or_false _

/-- The path that names are on their own is watched if all of them are. -/
theorem isIgnored_ofPlace_eq_false_iff (proper : ∀ name ∈ place, Path.IsName name) :
    isIgnored (Path.ofPlace place) = false ↔ ∀ name ∈ place, isIgnoredName name = false := by
  rw [isIgnored, Path.components_ofPlace proper, List.any_map]
  simp

theorem seenFrom_joinAll (root : Path) (proper : ∀ name ∈ place, Path.IsName name) :
    seenFrom root (root.joinAll place) = Path.ofPlace place := by
  rw [seenFrom, Path.below?_joinAll root proper, Option.getD_some]

/-- A report wakes the watch if one of its paths is not ignored as it is seen from the directory. -/
theorem wakes_joinAll (root : Path) {places : List (List Text)}
    (proper : ∀ place ∈ places, ∀ name ∈ place, Path.IsName name) :
    wakes root (some (places.map root.joinAll)) = places.any fun place => !isIgnored (Path.ofPlace place) := by
  rw [wakes, List.any_map, Bool.eq_iff_iff, List.any_eq_true, List.any_eq_true]
  apply exists_congr
  intro place
  apply and_congr_right
  intro member
  rw [Function.comp_apply, seenFrom_joinAll root (proper place member)]

namespace Listing

variable {listing : Listing α} {entries : List (Text × Listing α)}

/-- Whether names lead to a file, and what that holds. -/
inductive Holds : Listing α → List Text → Option (List α) → Prop where
  | file (content : Option (List α)) : Holds (.file content) [] content
  | entry {entries : List (Text × Listing α)} {name : Text} {listing : Listing α} {place : List Text}
      {content : Option (List α)} (listed : (name, listing) ∈ entries) (held : Holds listing place content) :
      Holds (.directory entries) (name :: place) content

/-- What a file system shows: the entries of a directory have names, and each has a name of its own. -/
inductive Proper : Listing α → Prop where
  | file (content : Option (List α)) : Proper (.file content)
  | directory {entries : List (Text × Listing α)} (named : ∀ entry ∈ entries, Path.IsName entry.1)
      (once : (entries.map Prod.fst).Nodup) (inside : ∀ entry ∈ entries, Proper entry.2) :
      Proper (.directory entries)
  | other : Proper .other

/-- The files of a directory that are watched: the names that lead to them, none of which is left out, and what
they hold. -/
def watched (listing : Listing α) : Set (List Text × List α) :=
  {file | ∃ content, listing.Holds file.1 content ∧ file.1 ≠ [] ∧
    (∀ name ∈ file.1, isIgnoredName name = false) ∧ file.2 = content.getD []}

/-! ## The walk -/

mutual

/-- The files to which names lead that are not left out. -/
def files : Listing α → List (List Text × Option (List α))
  | .file content => [([], content)]
  | .directory entries => entryFiles entries
  | .other => []

/-- The files below entries, with the names that lead there. -/
def entryFiles : List (Text × Listing α) → List (List Text × Option (List α))
  | [] => []
  | (name, listing) :: rest =>
    if isIgnoredName name then entryFiles rest
    else (files listing).map (fun file => (name :: file.1, file.2)) ++ entryFiles rest

end

theorem entryFiles_eq (entries : List (Text × Listing α)) :
    entryFiles entries = (entries.filter fun entry => !isIgnoredName entry.1).flatMap fun entry =>
      (files entry.2).map fun file => (entry.1 :: file.1, file.2) := by
  induction entries with
  | nil => rfl
  | cons entry entries ih =>
    obtain ⟨name, listing⟩ := entry
    cases hidden : isIgnoredName name <;> simp [entryFiles, hidden, ih]

theorem walkEntries_eq (named : ∀ entry ∈ entries, Path.IsName entry.1) (directory : Path) :
    walkEntries directory entries = (entries.filter fun entry => !isIgnoredName entry.1).flatMap fun entry =>
      walk (directory.join entry.1) entry.2 := by
  induction entries with
  | nil => rfl
  | cons entry entries ih =>
    obtain ⟨name, listing⟩ := entry
    obtain ⟨first, others⟩ := List.forall_mem_cons.mp named
    have left : (directory.join name).fileName?.any isIgnored = isIgnoredName name := by
      rw [Path.fileName?_join_name directory first, Option.any_some, isIgnored_name first]
    cases hidden : isIgnoredName name <;> simp [walkEntries, left, hidden, ih others]

/-- A walk finds the files that it would find from anywhere else, each at the path to which its names lead. -/
theorem walk_eq (proper : listing.Proper) (path : Path) :
    walk path listing = (files listing).map fun file => (path.joinAll file.1, file.2) := by
  induction proper generalizing path with
  | file content => rfl
  | other => rfl
  | @directory entries named once inside ih =>
    rw [walk, files, walkEntries_eq named, entryFiles_eq, List.map_flatMap]
    apply List.flatMap_congr
    intro entry member
    rw [ih entry (List.mem_of_mem_filter member), List.map_map]
    rfl

/-- The files that are found are those to which names lead, none of which is left out. -/
theorem mem_files_iff (proper : listing.Proper) :
    (place, content) ∈ files listing ↔
      listing.Holds place content ∧ ∀ name ∈ place, isIgnoredName name = false := by
  induction proper generalizing place with
  | file held =>
    constructor
    · intro member
      obtain ⟨rfl, rfl⟩ := Prod.mk.inj (List.mem_singleton.mp member)
      exact ⟨.file content, by simp⟩
    · rintro ⟨⟨_⟩, _⟩
      simp [files]
  | other =>
    constructor
    · intro member
      cases member
    · rintro ⟨⟨_⟩, _⟩
  | @directory entries named once inside ih =>
    rw [files, entryFiles_eq]
    simp only [List.mem_flatMap, List.mem_filter, List.mem_map, Bool.not_eq_true', Prod.mk.injEq]
    constructor
    · rintro ⟨⟨name, listing⟩, ⟨listed, shown⟩, ⟨rest, _⟩, found, rfl, rfl⟩
      obtain ⟨held, left⟩ := (ih _ listed).mp found
      exact ⟨.entry listed held, List.forall_mem_cons.mpr ⟨shown, left⟩⟩
    · rintro ⟨held, left⟩
      cases held with
      | @entry _ name listing rest _ listed held =>
        obtain ⟨shown, others⟩ := List.forall_mem_cons.mp left
        exact ⟨(name, listing), ⟨listed, shown⟩, (rest, content), (ih _ listed).mpr ⟨held, others⟩, rfl, rfl⟩

/-- No two files are found at the end of the same names. -/
theorem nodup_files (proper : listing.Proper) : ((files listing).map Prod.fst).Nodup := by
  induction proper with
  | file content => simp [files]
  | other => simp [files]
  | @directory entries named once inside ih =>
    rw [files, entryFiles_eq, List.map_flatMap, List.nodup_flatMap]
    constructor
    · intro entry member
      have below := ih entry (List.mem_of_mem_filter member)
      have longer := below.map (List.cons_injective (a := entry.1))
      simpa [Function.comp_def] using longer
    · have apart : entries.Pairwise fun a b => a.1 ≠ b.1 := List.pairwise_map.mp once
      refine (apart.filter _).imp ?_
      intro first second differ place inFirst inSecond
      simp only [List.mem_map] at inFirst inSecond
      obtain ⟨_, ⟨_, _, rfl⟩, rfl⟩ := inFirst
      obtain ⟨_, ⟨_, _, rfl⟩, same⟩ := inSecond
      exact differ (List.cons.inj same).1.symm

theorem isName_of_holds (proper : listing.Proper) (held : listing.Holds place content) :
    ∀ name ∈ place, Path.IsName name := by
  induction proper generalizing place with
  | file => cases held; simp
  | other => cases held
  | @directory entries named once inside ih =>
    cases held with
    | entry listed held => exact List.forall_mem_cons.mpr ⟨named _ listed, ih _ listed held⟩

/-! ## Collected files -/

/-- The files below a directory to which names lead that are not left out. -/
def filesBelow (listing : Listing α) : List (List Text × Option (List α)) :=
  entryFiles listing.entries

theorem collected_eq (proper : listing.Proper) (root : Path) :
    listing.collected root = listing.filesBelow.map fun file => (root.joinAll file.1, file.2) := by
  cases proper with
  | file => rfl
  | other => rfl
  | directory named once inside => exact walk_eq (.directory named once inside) root

theorem mem_filesBelow_iff (proper : listing.Proper) :
    (place, content) ∈ listing.filesBelow ↔
      place ≠ [] ∧ listing.Holds place content ∧ ∀ name ∈ place, isIgnoredName name = false := by
  cases proper with
  | file held =>
    refine iff_of_false List.not_mem_nil ?_
    rintro ⟨filled, ⟨_⟩, _⟩
    exact filled rfl
  | other =>
    refine iff_of_false List.not_mem_nil ?_
    rintro ⟨_, ⟨_⟩, _⟩
  | @directory entries named once inside =>
    have found : (place, content) ∈ files (.directory entries) ↔ _ := mem_files_iff (.directory named once inside)
    refine found.trans (iff_and_self.mpr ?_)
    rintro ⟨held, _⟩
    cases held
    exact List.cons_ne_nil _ _

theorem nodup_filesBelow (proper : listing.Proper) : (listing.filesBelow.map Prod.fst).Nodup := by
  cases proper with
  | file => simp [filesBelow, Listing.entries, entryFiles]
  | other => simp [filesBelow, Listing.entries, entryFiles]
  | directory named once inside => exact nodup_files (.directory named once inside)

/-- A walk through a directory collects the files on whose way from the directory no name is left out. -/
theorem mem_collected_iff (proper : listing.Proper) {path : Path} :
    (path, content) ∈ listing.collected root ↔
      ∃ place, place ≠ [] ∧ listing.Holds place content ∧ path = root.joinAll place ∧
        isIgnored (Path.ofPlace place) = false := by
  rw [collected_eq proper, List.mem_map]
  constructor
  · rintro ⟨⟨place, content⟩, found, same⟩
    obtain ⟨rfl, rfl⟩ := Prod.mk.inj same
    obtain ⟨filled, held, left⟩ := (mem_filesBelow_iff proper).mp found
    exact ⟨place, filled, held, rfl, (isIgnored_ofPlace_eq_false_iff (isName_of_holds proper held)).mpr left⟩
  · rintro ⟨place, filled, held, rfl, shown⟩
    have left := (isIgnored_ofPlace_eq_false_iff (isName_of_holds proper held)).mp shown
    exact ⟨(place, content), (mem_filesBelow_iff proper).mpr ⟨filled, held, left⟩, rfl⟩

/-! ## Order -/

/-- How places are compared: name by name. -/
def placeRank (place : List Text) : List (List Nat) :=
  place.map fun name => (Path.Component.name name).rank

theorem placeRank_injective : Function.Injective placeRank := by
  have named : Function.Injective fun name => (Path.Component.name name).rank := by
    intro first second same
    have characters := (List.cons.inj same).2
    exact List.map_injective_iff.mpr (fun _ _ => Char.toNat_inj.mp) characters
  exact List.map_injective_iff.mpr named

/-- Paths below a directory are compared as the names that lead there. -/
theorem rank_joinAll (root : Path) (proper : ∀ name ∈ place, Path.IsName name) :
    (root.joinAll place).rank = root.rank ++ placeRank place := by
  rw [Path.rank, Path.components_joinAll root proper, List.map_append, List.map_map]
  rfl

theorem append_lt_append_iff (front first second : List (List Nat)) :
    front ++ first < front ++ second ↔ first < second := by
  induction front with
  | nil => rfl
  | cons part front ih => simp [ih]

/-- Whether a file may stand before another one. -/
def isBefore (first second : List Text × Option (List α)) : Bool :=
  !decide (placeRank second.1 < placeRank first.1)

/-- The fingerprint is the same wherever the directory lies. -/
theorem fingerprint_eq (proper : listing.Proper) (root : Path) :
    listing.fingerprint root =
      (listing.filesBelow.mergeSort isBefore).map fun file => (file.1, file.2.getD []) := by
  have named (file : List Text × Option (List α)) (member : file ∈ listing.filesBelow) :
      ∀ name ∈ file.1, Path.IsName name :=
    isName_of_holds proper ((mem_filesBelow_iff proper).mp member).2.1
  have sorted : (listing.collected root).mergeSort (fun a b => !decide (b.1.rank < a.1.rank)) =
      (listing.filesBelow.mergeSort isBefore).map fun file => (root.joinAll file.1, file.2) := by
    rw [collected_eq proper, List.map_mergeSort]
    intro first firstMember second secondMember
    rw [isBefore, rank_joinAll root (named first firstMember), rank_joinAll root (named second secondMember)]
    simp only [append_lt_append_iff]
  rw [fingerprint, sorted, List.map_map]
  apply List.map_congr_left
  intro file member
  have proper := named file ((List.mergeSort_perm _ _).subset member)
  dsimp only [Function.comp_apply]
  rw [seenFrom_joinAll root proper, Path.components_ofPlace proper, Path.texts_of_names]

theorem mem_watched_iff (proper : listing.Proper) (file : List Text × List α) :
    file ∈ listing.watched ↔ file ∈ listing.filesBelow.map fun file => (file.1, file.2.getD []) := by
  rw [List.mem_map]
  constructor
  · rintro ⟨content, held, filled, left, shown⟩
    exact ⟨(file.1, content), (mem_filesBelow_iff proper).mpr ⟨filled, held, left⟩, by rw [← shown]⟩
  · rintro ⟨⟨place, content⟩, found, rfl⟩
    obtain ⟨filled, held, left⟩ := (mem_filesBelow_iff proper).mp found
    exact ⟨content, held, filled, left, rfl⟩

/-- The fingerprint shows the watched files. -/
theorem mem_fingerprint_iff (proper : listing.Proper) (root : Path) (file : List Text × List α) :
    file ∈ listing.fingerprint root ↔ file ∈ listing.watched := by
  rw [fingerprint_eq proper, mem_watched_iff proper]
  exact ((List.mergeSort_perm listing.filesBelow isBefore).map _).mem_iff

theorem isBefore_iff {first second : List Text × Option (List α)} :
    isBefore first second = true ↔ placeRank first.1 ≤ placeRank second.1 := by
  simp [isBefore]

/-- The files of a fingerprint stand in the order of the names that lead to them, and no two have the same. -/
theorem pairwise_fingerprint (proper : listing.Proper) (root : Path) :
    (listing.fingerprint root).Pairwise fun a b => placeRank a.1 < placeRank b.1 := by
  rw [fingerprint_eq proper, List.pairwise_map]
  have sorted : (listing.filesBelow.mergeSort isBefore).Pairwise fun a b => isBefore a b = true := by
    apply List.pairwise_mergeSort
    · intro a b c
      simp only [isBefore_iff]
      exact le_trans
    · intro a b
      simp only [Bool.or_eq_true, isBefore_iff]
      exact le_total _ _
  have apart : (listing.filesBelow.mergeSort isBefore).Pairwise fun a b => a.1 ≠ b.1 := by
    have places := ((List.mergeSort_perm listing.filesBelow isBefore).map Prod.fst).nodup_iff.mpr
      (nodup_filesBelow proper)
    exact List.pairwise_map.mp places
  refine (sorted.and apart).imp ?_
  intro a b both
  exact lt_of_le_of_ne (isBefore_iff.mp both.1) fun same => both.2 (placeRank_injective same)

/-- There is one order for files that no two of which have the same names. -/
theorem eq_of_sorted {files others : List (List Text × List α)}
    (sorted : files.Pairwise fun a b => placeRank a.1 < placeRank b.1)
    (othersSorted : others.Pairwise fun a b => placeRank a.1 < placeRank b.1)
    (same : ∀ file, file ∈ files ↔ file ∈ others) : files = others := by
  have distinct {files : List (List Text × List α)}
      (sorted : files.Pairwise fun a b => placeRank a.1 < placeRank b.1) : files.Nodup := by
    apply sorted.imp
    rintro a b before rfl
    exact lt_irrefl _ before
  apply List.Perm.eq_of_pairwise _ sorted othersSorted
  · exact (List.perm_ext_iff_of_nodup (distinct sorted) (distinct othersSorted)).mpr same
  · intro a b _ _ before after
    exact absurd before (lt_asymm after)

/-- Two directories have the same fingerprint exactly if they have the same watched files, however their
entries are listed and wherever they lie. What is collected in a directory are the files whose paths are not
ignored as they are seen from the directory, and reports of changes are told apart in the same way. -/
theorem fingerprint_eq_iff_watched {Digest : Type} (digest : List (List Text × List α) → Digest)
    (injective : Function.Injective digest) {first second : Listing α} (firstProper : first.Proper)
    (secondProper : second.Proper) (here there : Path) :
    (digest (first.fingerprint here) = digest (second.fingerprint there) ↔ first.watched = second.watched) ∧
      (∀ path content, (path, content) ∈ first.collected here ↔
        ∃ place, place ≠ [] ∧ first.Holds place content ∧ path = here.joinAll place ∧
          isIgnored (Path.ofPlace place) = false) ∧
      (∀ place content, place ≠ [] → first.Holds place content →
        ((here.joinAll place, content) ∈ first.collected here ↔ isIgnored (Path.ofPlace place) = false)) ∧
      ∀ places : List (List Text), (∀ place ∈ places, ∀ name ∈ place, Path.IsName name) →
        wakes here (some (places.map here.joinAll)) = places.any fun place => !isIgnored (Path.ofPlace place) := by
  refine ⟨?_, fun path content => mem_collected_iff firstProper, ?_, fun places => wakes_joinAll here⟩
  · rw [injective.eq_iff]
    constructor
    · intro same
      ext file
      rw [← mem_fingerprint_iff firstProper here, same, mem_fingerprint_iff secondProper]
    · intro same
      apply eq_of_sorted (pairwise_fingerprint firstProper here) (pairwise_fingerprint secondProper there)
      intro file
      rw [mem_fingerprint_iff firstProper, mem_fingerprint_iff secondProper, same]
  · intro place content filled held
    rw [mem_collected_iff firstProper]
    constructor
    · rintro ⟨other, _, otherHeld, same, shown⟩
      rwa [Path.joinAll_inj (isName_of_holds firstProper held) (isName_of_holds firstProper otherHeld) same]
    · intro shown
      exact ⟨place, filled, held, rfl, shown⟩

/-- A page directory. -/
def pageListing : Listing Char :=
  .directory [("site.css".toList, .file (some "p".toList)), ("target".toList, .directory [("x".toList, .file none)]),
    ("img".toList, .directory [("a".toList, .file none)])]

/-- The same page directory after a build, listed in another order. -/
def builtPageListing : Listing Char :=
  .directory [("img".toList, .directory [("a".toList, .file (some [])), ("b".toList, .other)]),
    (".git".toList, .file none), ("target".toList, .directory []), ("site.css".toList, .file (some "p".toList))]

theorem proper_pageListing : pageListing.Proper := by
  have build : Proper (.directory [("x".toList, .file none)] : Listing Char) :=
    .directory (by decide) (by decide) (by simpa using .file _)
  have pictures : Proper (.directory [("a".toList, .file none)] : Listing Char) :=
    .directory (by decide) (by decide) (by simpa using .file _)
  exact .directory (by decide) (by decide) (by simpa using ⟨.file _, build, pictures⟩)

theorem proper_builtPageListing : builtPageListing.Proper := by
  have pictures : Proper (.directory [("a".toList, .file (some [])), ("b".toList, .other)] : Listing Char) :=
    .directory (by decide) (by decide) (by simpa using ⟨.file _, .other⟩)
  have build : Proper (.directory [] : Listing Char) := .directory (by simp) (by simp) (by simp)
  exact .directory (by decide) (by decide) (by simpa using ⟨pictures, .file _, build, .file _⟩)

/-- A build, a link, the order of entries and another place do not show in the fingerprint of a directory. -/
theorem fingerprint_eq_iff_watched_built :
    Function.Injective (id : List (List Text × Text) → List (List Text × Text)) ∧
      pageListing.Proper ∧ builtPageListing.Proper ∧
      pageListing.fingerprint "/srv/site".toList = builtPageListing.fingerprint "/.site".toList ∧
      ("/srv/site/img/a".toList, none) ∈ pageListing.collected "/srv/site".toList ∧
      wakes "/srv/site".toList (some ["/srv/site/target/x".toList]) = false := by
  obtain ⟨prints, _, collects, reports⟩ := fingerprint_eq_iff_watched id Function.injective_id
    proper_pageListing proper_builtPageListing "/srv/site".toList "/.site".toList
  have watched : pageListing.watched = builtPageListing.watched := by
    ext file
    rw [mem_watched_iff proper_pageListing, mem_watched_iff proper_builtPageListing]
    apply List.Perm.mem_iff
    decide
  have picture : pageListing.Holds ["img".toList, "a".toList] none :=
    .entry (List.mem_of_getElem? (show _[2]? = some _ from rfl)) (.entry (List.mem_singleton.mpr rfl) (.file none))
  refine ⟨Function.injective_id, proper_pageListing, proper_builtPageListing, prints.mpr watched, ?_, ?_⟩
  · exact (collects ["img".toList, "a".toList] none (by simp) picture).mpr (by decide)
  · exact (reports [["target".toList, "x".toList]] (by decide)).trans (by decide)

end Listing

end Preview

end PageCompiler
