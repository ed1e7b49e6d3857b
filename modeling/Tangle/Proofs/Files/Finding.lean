import Tangle.Files.Find
import Tangle.Proofs.Files.Directories
import Tangle.Proofs.Path.Order

/-!
What is found. A path stands for itself or for the documents that the walk of a directory comes to,
and what is found is what the paths stand for (`exists_arranged`). A walk is truthful if there is a
regular file wherever it says so; `FileSystem.visits` is, since names are neither dots nor empty and
no link is gone through (`truthful_visits`).
-/

namespace Tangle

theorem mem_mapM_iff {α β ε : Type} {items : List α} {f : α → Except ε β} {values : List β}
    (done : items.mapM f = .ok values) (value : β) :
    value ∈ values ↔ ∃ item ∈ items, f item = .ok value := by
  induction items generalizing values with
  | nil =>
    obtain rfl := Except.ok.inj done
    simp
  | cons item rest ih =>
    rw [List.mapM_cons] at done
    cases first : f item with
    | error fault =>
      rw [first] at done
      cases done
    | ok made =>
      cases later : rest.mapM f with
      | error fault =>
        rw [first, later] at done
        cases done
      | ok others =>
        rw [first, later] at done
        obtain rfl := Except.ok.inj done
        rw [List.mem_cons, ih later, List.exists_mem_cons_iff, first, Except.ok.injEq, eq_comm]

theorem exists_mapM_error {α β ε : Type} (items : List α) (f : α → Except ε β) :
    (∃ error, items.mapM f = .error error) ↔ ∃ item ∈ items, ∃ error, f item = .error error := by
  induction items with
  | nil => simp [pure, Except.pure]
  | cons item rest ih =>
    rw [List.mapM_cons, List.exists_mem_cons_iff, ← ih]
    cases f item with
    | error fault => simp [bind, Except.bind]
    | ok value => cases rest.mapM f <;> simp [bind, Except.bind, pure, Except.pure]

namespace FileSystem

open FileName

/-- Where a walk of a directory says that there is a regular file, there is one. -/
def Truthful (fs : FileSystem) (walk : Walk) : Prop :=
  ∀ path place visited, fs.locate path = .ok place → fs.isDirectoryAt place = true →
    some visited ∈ walk path → visited.isFile = true →
    ∃ file, fs.locate visited.path = .ok file ∧ fs.shapeAt file = some .file

/-- What a path stands for: itself, or the files with an extension in the directory it leads to. -/
inductive StandsFor (fs : FileSystem) (walk : Walk) (extensions : List String) (path : Path) :
    Path → Prop
  | itself {place : Location} (located : fs.locate path = .ok place)
    (other : fs.isDirectoryAt place = false) : StandsFor fs walk extensions path path
  | below {place : Location} {found : Path} (located : fs.locate path = .ok place)
    (inside : fs.isDirectoryAt place = true) (yielded : some ⟨found, true⟩ ∈ walk path)
    (fits : found.matchesExtension extensions = true) : StandsFor fs walk extensions path found

section Walking

variable {fs : FileSystem}

theorem locate_push {path : Path} {directory : Location} {name : FileName} {shape : Shape}
    (located : fs.locate path = .ok directory) (inside : fs.shapeAt directory = some .directory)
    (named : isName name = true) (held : fs.shapeAt (directory ++ [name]) = some shape)
    (direct : ∀ target, shape ≠ .link target) :
    fs.locate (path.push name) = .ok (directory ++ [name]) := by
  obtain ⟨counted, down⟩ : Path.counts name = true ∧ name ≠ dotDot := by
    simpa [isName] using named
  have goes : ∀ segments,
      fs.walkFrom linkBound (startOf fs.working path) segments = .ok directory →
      fs.locate ⟨path.anchor, segments ++ [name]⟩ = .ok (directory ++ [name]) := by
    intro segments walked
    rw [locate_of_segments (by simp)]
    exact walkFrom_concat_of_held walked inside counted down held direct
  rw [locate] at located
  split_ifs at located
  rw [Path.push]
  split_ifs with slash
  · obtain ⟨segments, parts⟩ := List.getLast?_eq_some_iff.mp slash
    rw [parts] at located
    obtain ⟨parent, walked, _, stays, _⟩ := walkFrom_concat located
    obtain rfl := stays rfl
    rw [parts, List.dropLast_concat]
    exact goes segments walked
  · exact goes path.segments located

theorem isName_of_mem_namesIn {directory : Location} {name : FileName}
    (member : name ∈ fs.namesIn directory) : isName name = true := by
  obtain ⟨⟨place, entry⟩, _, chosen⟩ := List.mem_filterMap.mp member
  simp only at chosen
  split_ifs at chosen
  exact (Option.mem_filter_iff.mp chosen).2

theorem locate_of_mem_visitsBelow {depth : Nat} {directory : Location} {path : Path}
    {visited : Visited} (located : fs.locate path = .ok directory)
    (inside : fs.shapeAt directory = some .directory)
    (member : some visited ∈ fs.visitsBelow depth directory path) (file : visited.isFile = true) :
    ∃ place, fs.locate visited.path = .ok place ∧ fs.shapeAt place = some .file := by
  induction depth generalizing directory path with
  | zero => cases member
  | succ depth ih =>
    obtain ⟨name, listed, below⟩ := List.mem_flatMap.mp member
    have named := isName_of_mem_namesIn listed
    have shaped : ∀ {entry}, fs.get? (directory ++ [name]) = some entry →
        fs.shapeAt (directory ++ [name]) = some entry.shape := by
      intro entry held
      rw [shapeAt, held, Option.map_some]
    simp only at below
    split at below
    · cases below
    split at below
    · cases below
    · next content held =>
      rw [List.mem_singleton] at below
      obtain rfl := Option.some.inj below
      have direct : ∀ target, (Entry.file content).shape ≠ .link target := by simp [Entry.shape]
      exact ⟨_, locate_push located inside named (shaped held) direct, shaped held⟩
    · rw [List.mem_singleton] at below
      obtain rfl := Option.some.inj below
      cases file
    · next held =>
      rcases List.mem_cons.mp below with same | further
      · obtain rfl := Option.some.inj same
        cases file
      · have direct : ∀ target, Entry.directory.shape ≠ .link target := by simp [Entry.shape]
        exact ih (locate_push located inside named (shaped held) direct) (shaped held) further

theorem truthful_visits (fs : FileSystem) : fs.Truthful fs.visits := by
  intro path place visited located inside member file
  rw [visits, located] at member
  rcases List.mem_cons.mp member with same | below
  · obtain rfl := Option.some.inj same
    cases file
  · exact locate_of_mem_visitsBelow located (isDirectoryAt_iff.mp inside) below file

end Walking

variable {fs : FileSystem} {walk : Walk} {extensions : List String}

section OnePath

variable {path found : Path} {place : Location}

theorem mem_documentsAmong {entries : List (Option Visited)} :
    found ∈ documentsAmong extensions entries ↔
      some ⟨found, true⟩ ∈ entries ∧ found.matchesExtension extensions = true := by
  simp only [documentsAmong, List.mem_filterMap]
  constructor
  · rintro ⟨⟨path, isFile⟩, ⟨_, listed, rfl⟩, chosen⟩
    split_ifs at chosen with accepted
    obtain rfl := Option.some.inj chosen
    rw [Bool.and_eq_true] at accepted
    obtain rfl : isFile = true := accepted.1
    exact ⟨listed, accepted.2⟩
  · rintro ⟨listed, fits⟩
    exact ⟨⟨found, true⟩, ⟨_, listed, rfl⟩, by simp [fits]⟩

theorem documentsAt_of_locate (located : fs.locate path = .ok place) :
    fs.documentsAt walk extensions path = .ok
      (if fs.isDirectoryAt place then documentsAmong extensions (walk path) else [path]) := by
  rw [documentsAt, located]
  simp only [Except.mapError, bind, Except.bind]
  split_ifs <;> rfl

theorem documentsAt_of_error {cause : Cause} (refused : fs.locate path = .error cause) :
    fs.documentsAt walk extensions path = .error ⟨path, cause⟩ := by
  rw [documentsAt, refused]
  rfl

theorem exists_documentsAt_error :
    (∃ error, fs.documentsAt walk extensions path = .error error) ↔
      ∃ cause, fs.locate path = .error cause := by
  cases located : fs.locate path with
  | error cause => simp [documentsAt_of_error located]
  | ok place => simp [documentsAt_of_locate located]

theorem mem_documentsAt :
    (∃ documents, fs.documentsAt walk extensions path = .ok documents ∧ found ∈ documents) ↔
      fs.StandsFor walk extensions path found := by
  constructor
  · rintro ⟨documents, listed, member⟩
    cases located : fs.locate path with
    | error cause =>
      rw [documentsAt_of_error located] at listed
      cases listed
    | ok place =>
      rw [documentsAt_of_locate located] at listed
      obtain rfl := Except.ok.inj listed
      split_ifs at member with inside
      · obtain ⟨yielded, fits⟩ := mem_documentsAmong.mp member
        exact .below located inside yielded fits
      · obtain rfl := List.mem_singleton.mp member
        exact .itself located (Bool.eq_false_iff.mpr inside)
  · intro stands
    cases stands with
    | itself located other =>
      refine ⟨_, documentsAt_of_locate located, ?_⟩
      rw [other]
      exact List.mem_singleton_self _
    | below located inside yielded fits =>
      refine ⟨_, documentsAt_of_locate located, ?_⟩
      rw [if_pos inside]
      exact mem_documentsAmong.mpr ⟨yielded, fits⟩

theorem StandsFor.locate (truthful : fs.Truthful walk)
    (stands : fs.StandsFor walk extensions path found) :
    ∃ place, fs.locate found = .ok place ∧ fs.isDirectoryAt place = false := by
  cases stands with
  | itself located other => exact ⟨_, located, other⟩
  | below located inside yielded fits =>
    obtain ⟨file, leads, shape⟩ := truthful path _ _ located inside yielded rfl
    exact ⟨file, leads, isDirectoryAt_eq_false (by simp [shape])⟩

end OnePath

section Paths

variable {paths documents : List Path}

theorem findDocuments_of_lists {lists : List (List Path)}
    (each : paths.mapM (fs.documentsAt walk extensions) = .ok lists) :
    fs.findDocuments walk extensions paths = .ok (Path.arranged lists.flatten) := by
  rw [findDocuments, each]
  rfl

theorem exists_findDocuments_error :
    (∃ error, fs.findDocuments walk extensions paths = .error error) ↔
      ∃ path ∈ paths, ∃ cause, fs.locate path = .error cause := by
  have each := exists_mapM_error paths (fs.documentsAt walk extensions)
  simp only [exists_documentsAt_error] at each
  rw [← each, findDocuments]
  cases paths.mapM (fs.documentsAt walk extensions) <;> simp [bind, Except.bind, pure, Except.pure]

/-- What is found is what paths stand for, put in order. -/
theorem exists_arranged (found : fs.findDocuments walk extensions paths = .ok documents) :
    ∃ all, documents = Path.arranged all ∧
      ∀ document, document ∈ all ↔ ∃ path ∈ paths, fs.StandsFor walk extensions path document := by
  cases each : paths.mapM (fs.documentsAt walk extensions) with
  | error error =>
    rw [findDocuments, each] at found
    cases found
  | ok lists =>
    rw [findDocuments_of_lists each] at found
    refine ⟨lists.flatten, (Except.ok.inj found).symm, fun document => ?_⟩
    rw [List.mem_flatten]
    simp only [mem_mapM_iff each, ← mem_documentsAt]
    constructor
    · rintro ⟨list, ⟨path, named, listed⟩, member⟩
      exact ⟨path, named, list, listed, member⟩
    · rintro ⟨path, named, list, listed, member⟩
      exact ⟨list, ⟨path, named, listed⟩, member⟩

theorem increasing_of_found (found : fs.findDocuments walk extensions paths = .ok documents) :
    documents.Pairwise (·.key < ·.key) := by
  obtain ⟨all, rfl, _⟩ := exists_arranged found
  exact Path.pairwise_arranged all

theorem locate_of_found (truthful : fs.Truthful walk)
    (found : fs.findDocuments walk extensions paths = .ok documents) :
    ∀ document ∈ documents,
      ∃ place, fs.locate document = .ok place ∧ fs.isDirectoryAt place = false := by
  obtain ⟨all, rfl, members⟩ := exists_arranged found
  intro document member
  obtain ⟨path, _, stands⟩ := (members document).mp (Path.mem_of_mem_arranged member)
  exact stands.locate truthful

theorem findDocuments_of_increasing (increasing : documents.Pairwise (·.key < ·.key))
    (located : ∀ document ∈ documents,
      ∃ place, fs.locate document = .ok place ∧ fs.isDirectoryAt place = false) :
    fs.findDocuments walk extensions documents = .ok documents := by
  have each : documents.mapM (fs.documentsAt walk extensions) = .ok (documents.map ([·])) := by
    clear increasing
    induction documents with
    | nil => rfl
    | cons document rest ih =>
      obtain ⟨⟨place, leads, other⟩, others⟩ := List.forall_mem_cons.mp located
      have itself : fs.documentsAt walk extensions document = .ok [document] := by
        rw [documentsAt_of_locate leads, other]
        rfl
      rw [List.mapM_cons, itself, ih others]
      rfl
  have flat : (documents.map ([·])).flatten = documents := by
    rw [← List.flatMap_def, List.flatMap_singleton']
  rw [findDocuments_of_lists each, flat, Path.arranged_of_increasing increasing]

end Paths

end FileSystem

end Tangle
