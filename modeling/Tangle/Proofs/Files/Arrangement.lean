import Tangle.Proofs.Files.Finding

/-!
The order of what is found. The documents of paths are strictly increasing and, up to the spelling
of paths, exactly what the paths stand for. So the order and the number of times in which paths are
given makes no difference, and neither does the order in which a walk of a directory comes to its
entries.
-/

namespace Tangle.FileSystem

/-- What is asked of the documents of paths. -/
structure AreDocuments (fs : FileSystem) (walk : Walk) (extensions : List String)
    (paths documents : List Path) : Prop where
  increasing : documents.Pairwise (·.components < ·.components)
  apart : documents.Pairwise (·.components ≠ ·.components)
  sound : ∀ document ∈ documents, ∃ path ∈ paths, fs.StandsFor walk extensions path document
  complete : ∀ path ∈ paths, ∀ found, fs.StandsFor walk extensions path found →
    ∃ document ∈ documents, document.components = found.components

variable {fs : FileSystem} {walk : Walk} {extensions : List String}

theorem StandsFor.of_walk {other : Walk} {path found : Path}
    (walks : ∀ path entry, entry ∈ walk path → entry ∈ other path)
    (stands : fs.StandsFor walk extensions path found) :
    fs.StandsFor other extensions path found := by
  cases stands with
  | itself located kind => exact .itself located kind
  | below located inside yielded fits => exact .below located inside (walks _ _ yielded) fits

theorem areDocuments_of_found {paths documents : List Path}
    (found : fs.findDocuments walk extensions paths = .ok documents) :
    fs.AreDocuments walk extensions paths documents := by
  obtain ⟨all, rfl, members⟩ := exists_arranged found
  have strict := Path.pairwise_arranged all
  refine ⟨strict.imp Path.key_lt_key.mp, strict.imp ?_, ?_, ?_⟩
  · intro left right less
    rw [ne_eq, ← Path.key_eq_key]
    exact less.ne
  · intro document member
    exact (members document).mp (Path.mem_of_mem_arranged member)
  · intro path named document stands
    obtain ⟨kept, member, equal⟩ :=
      Path.exists_mem_arranged ((members document).mpr ⟨path, named, stands⟩)
    exact ⟨kept, member, Path.key_eq_key.mp equal⟩

/--
Finding documents fails exactly if a path leads nowhere, and otherwise gives the documents of the
paths, strictly increasing in the order of paths. Paths given in another order or repeated, and a
walk that comes to the same entries in another order, change neither that nor the documents up to
their spelling. The program's own walk calls regular files only what is one.
-/
theorem findDocuments_whatever_order (fs : FileSystem) (extensions : List String)
    {walk other : Walk} {paths others : List Path}
    (walks : ∀ path entry, entry ∈ walk path ↔ entry ∈ other path)
    (named : ∀ path, path ∈ paths ↔ path ∈ others) :
    fs.Truthful fs.visits ∧
    ((∃ error, fs.findDocuments walk extensions paths = .error error) ↔
      ∃ path ∈ paths, ∃ cause, fs.locate path = .error cause) ∧
    (∀ documents, fs.findDocuments walk extensions paths = .ok documents →
      fs.AreDocuments walk extensions paths documents) ∧
    ((∃ error, fs.findDocuments walk extensions paths = .error error) ↔
      ∃ error, fs.findDocuments other extensions others = .error error) ∧
    ∀ documents again, fs.findDocuments walk extensions paths = .ok documents →
      fs.findDocuments other extensions others = .ok again →
      documents.map Path.components = again.map Path.components := by
  refine ⟨fs.truthful_visits, exists_findDocuments_error,
    fun documents => areDocuments_of_found, ?_, ?_⟩
  · rw [exists_findDocuments_error, exists_findDocuments_error]
    simp only [named]
  · intro documents again first second
    obtain ⟨all, rfl, members⟩ := exists_arranged first
    obtain ⟨rest, rfl, further⟩ := exists_arranged second
    apply Path.map_components_arranged
    intro document
    rw [members, further]
    constructor
    · rintro ⟨path, given, stands⟩
      exact ⟨path, (named path).mp given, stands.of_walk fun _ _ => (walks _ _).mp⟩
    · rintro ⟨path, given, stands⟩
      exact ⟨path, (named path).mpr given, stands.of_walk fun _ _ => (walks _ _).mpr⟩

def scattered : FileSystem :=
  let name := fun (letter : UInt8) => [letter, 0x2E, 0x67, 0x6F, 0x2E, 0x6D, 0x64]
  { entries :=
      [([[0x77]], .directory), ([[0x77], name 0x61], .file "first".toUTF8),
        ([[0x77], [0x64]], .directory), ([[0x77], [0x64], name 0x62], .file "second".toUTF8)]
    working := [[0x77]] }

/-- The entries of a directory from last to first, and the paths turned round with one repeated. -/
theorem findDocuments_whatever_order_scattered :
    let here := Path.ofString "."
    let file := Path.ofString "a.go.md"
    let documents := ["./a.go.md", "./d/b.go.md", "a.go.md"].map Path.ofString
    let backward : Walk := fun path => (scattered.visits path).reverse
    scattered.findDocuments scattered.visits ["go.md"] [here, file] = .ok documents ∧
      ∃ again, scattered.findDocuments backward ["go.md"] [file, here, file] = .ok again ∧
        documents.map Path.components = again.map Path.components := by
  intro here file documents backward
  have each : [here, file].mapM (scattered.documentsAt scattered.visits ["go.md"]) =
      .ok [["./a.go.md", "./d/b.go.md"].map Path.ofString, [file]] := by decide +kernel
  have found : scattered.findDocuments scattered.visits ["go.md"] [here, file] = .ok documents := by
    rw [findDocuments_of_lists each]
    exact congrArg Except.ok (Path.arranged_of_increasing (by decide +kernel))
  have walks : ∀ path entry, entry ∈ scattered.visits path ↔ entry ∈ backward path := by
    simp [backward]
  have named : ∀ path, path ∈ [here, file] ↔ path ∈ [file, here, file] := by
    intro path
    simp only [List.mem_cons, List.not_mem_nil, or_false]
    grind
  obtain ⟨-, -, -, failures, same⟩ :=
    findDocuments_whatever_order scattered ["go.md"] walks named
  refine ⟨found, ?_⟩
  cases again : scattered.findDocuments backward ["go.md"] [file, here, file] with
  | error error =>
    obtain ⟨other, failed⟩ := failures.mpr ⟨error, again⟩
    rw [found] at failed
    cases failed
  | ok documents => exact ⟨documents, rfl, same _ _ found again⟩

end Tangle.FileSystem
