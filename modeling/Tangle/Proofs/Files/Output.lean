import Tangle.Proofs.Files.Directories
import Tangle.Proofs.Path.Output

/-!
Writing the source of a document. The place that an output path stands for is found after the
directories above it have been made. Whatever is refused on the way, writing leaves directories made
or, where the file was opened, its content or a beginning of it at that place (`writeOutput_eq`). The
path then leads to what was written (`locate_of_outputPlace`), and nothing that was made or written
before moves the place (`Reached.outputPlace`).
-/

namespace Tangle

namespace Path

theorem exists_above (path : Path) :
    ∃ anchor reversed, path.above = ancestorsFrom anchor reversed := by
  rw [above]
  cases path.parent? with
  | none => exact ⟨.bare, [], rfl⟩
  | some parent => exact ⟨parent.anchor, parent.segments.reverse, rfl⟩

theorem above_output (document : Path) (directory : Option Path) :
    (document.output directory).above = ancestorsFrom (document.home directory).anchor
      (core (document.home directory).segments).reverse := by
  rw [above, parent?_output]
  rfl

theorem above_output_some (document directory : Path) :
    (document.output (some directory)).above =
      ancestorsFrom directory.anchor (core directory.segments).reverse :=
  above_output document (some directory)

theorem above_output_none (document : Path) :
    ∃ segments, segments <+: document.segments ∧
      (document.output none).above = ancestorsFrom document.anchor segments.reverse := by
  rw [above_output]
  by_cases named : document.fileName? = none
  · rw [home_of_unnamed named]
    exact ⟨core document.segments, core_isPrefix _, rfl⟩
  · obtain ⟨before, -, own, shorter⟩ := home_of_named named
    rw [own, core_core]
    exact ⟨core before, shorter, rfl⟩

end Path

namespace FileSystem

variable {fs now later : FileSystem}

theorem read_eq_ok {path : Path} {content : ByteArray} :
    fs.read path = .ok content ↔
      ∃ place, fs.locate path = .ok place ∧ fs.fileAt? place = some content := by
  rw [read]
  cases fs.locate path with
  | error cause => simp [bind, Except.bind, Except.mapError]
  | ok place =>
    simp only [bind, Except.bind, contentAt, fileAt?, Except.ok.injEq, exists_eq_left']
    rcases fs.get? place with _ | (_ | _ | _) <;> simp [Except.mapError]

theorem put_put (fs : FileSystem) (place : Location) (first second : Entry) :
    (fs.put place first).put place second = fs.put place second := by
  simp [put, List.filter_filter]

theorem settled_above (fs : FileSystem) (path : Path) (k : Nat) :
    Settled fs (path.above.drop k) (fs.makeDirectories (path.above.drop k)).1
      (fs.makeDirectories (path.above.drop k)).2 := by
  obtain ⟨anchor, reversed, chain⟩ := path.exists_above
  obtain ⟨shorter, dropped⟩ := exists_drop_ancestorsFrom anchor reversed k
  rw [chain, dropped]
  exact makeDirectories_spec fs anchor shorter

theorem resumes_above (fs : FileSystem) (path : Path) (k : Nat) :
    Resumes fs (fs.makeDirectories (path.above.drop k)).1 path.above := by
  obtain ⟨anchor, reversed, chain⟩ := path.exists_above
  rw [chain]
  exact resumes_drop fs anchor reversed k

/-- The place that the source is written to, once the directories above it have been made. -/
def outputPlace (fs : FileSystem) (path : Path) : Except Cause Location :=
  match fs.makeDirectories path.above with
  | (_, some cause) => .error cause
  | (begun, none) =>
    if path.isEmpty then .error .notFound
    else begun.placeFor linkBound (startOf begun.working path) path.segments

theorem writeOutput_eq (fs : FileSystem) (faults : Faults) (path : Path) (content : ByteArray) :
    fs.writeOutput faults path content = match faults.making with
      | some breach =>
        ((fs.makeDirectories (path.above.drop (path.above.length - breach.done))).1,
          .error ⟨path, .other breach.reason⟩)
      | none => match fs.outputPlace path with
        | .error cause => ((fs.makeDirectories path.above).1, .error ⟨path, cause⟩)
        | .ok place => match faults.opening with
          | some reason => ((fs.makeDirectories path.above).1, .error ⟨path, .other reason⟩)
          | none =>
            ((fs.makeDirectories path.above).1.put place (.file (written faults.writing content)),
              match faults.writing with
              | none => .ok ()
              | some breach => .error ⟨path, .other breach.reason⟩) := by
  simp only [writeOutput, makeAbove, outputPlace]
  cases faults.making with
  | some breach => rfl
  | none =>
    simp only
    rcases fs.makeDirectories path.above with ⟨begun, _ | cause⟩
    · simp only [writeFile, openFile]
      split_ifs
      · rfl
      · cases begun.placeFor linkBound (startOf begun.working path) path.segments with
        | error cause => rfl
        | ok place =>
          cases faults.opening with
          | some reason => rfl
          | none =>
            simp only [bind, Except.bind, pure, Except.pure, fillFile, put_put]
            cases faults.writing <;> rfl
    · rfl

theorem free_of_outputPlace {path : Path} {place : Location}
    (placed : fs.outputPlace path = .ok place) :
    place ≠ [] ∧ ((fs.makeDirectories path.above).1.shapeAt place = none ∨
      (fs.makeDirectories path.above).1.shapeAt place = some .file) := by
  rw [outputPlace] at placed
  cases made : fs.makeDirectories path.above with
  | mk begun failure =>
  rw [made] at placed
  cases failure with
  | some cause => cases placed
  | none =>
    simp only at placed
    split_ifs at placed
    exact free_of_placeFor placed

theorem locate_of_outputPlace {path : Path} {place : Location}
    (placed : fs.outputPlace path = .ok place)
    (kept : Extends (fs.makeDirectories path.above).1 later)
    (file : later.shapeAt place = some .file) : later.locate path = .ok place := by
  rw [outputPlace] at placed
  cases made : fs.makeDirectories path.above with
  | mk begun failure =>
  rw [made] at placed kept
  cases failure with
  | some cause => cases placed
  | none =>
    simp only at placed
    rw [locate, kept.working]
    split_ifs at placed ⊢
    exact kept.walkFrom_of_placeFor placed file

section Writing

variable {faults : Faults} {path : Path} {place : Location}

/-- A file that was opened holds what was written, or as much of it as was written. -/
theorem writeOutput_of_opened (placed : fs.outputPlace path = .ok place)
    (made : faults.making = none) (opened : faults.opening = none) (content : ByteArray) :
    (fs.writeOutput faults path content).1 =
      (fs.makeDirectories path.above).1.put place (.file (written faults.writing content)) := by
  rw [writeOutput_eq, made, placed, opened]

theorem writeOutput_of_unopened (path : Path) (content : ByteArray)
    (unopened : faults.making = none → faults.opening = none →
      ∀ place, fs.outputPlace path ≠ .ok place) :
    ∃ k, (fs.writeOutput faults path content).1 =
      (fs.makeDirectories (path.above.drop k)).1 := by
  rw [writeOutput_eq]
  cases making : faults.making with
  | some breach => exact ⟨_, rfl⟩
  | none =>
    refine ⟨0, ?_⟩
    rw [List.drop_zero]
    cases placed : fs.outputPlace path with
    | error cause => rfl
    | ok place =>
      cases opening : faults.opening with
      | some reason => rfl
      | none => exact absurd placed (unopened making opening place)

/-- What writing an output leaves of a file system. -/
theorem writeOutput_cases (fs : FileSystem) (faults : Faults) (path : Path)
    (content : ByteArray) :
    (∃ k, (fs.writeOutput faults path content).1 =
      (fs.makeDirectories (path.above.drop k)).1) ∨
    ∃ place, fs.outputPlace path = .ok place ∧ (fs.writeOutput faults path content).1 =
      (fs.makeDirectories path.above).1.put place (.file (written faults.writing content)) := by
  by_cases opened : ∃ place, fs.outputPlace path = .ok place ∧
      faults.making = none ∧ faults.opening = none
  · obtain ⟨place, placed, made, opened⟩ := opened
    exact .inr ⟨place, placed, writeOutput_of_opened placed made opened content⟩
  · refine .inl (writeOutput_of_unopened path content fun made opening place placed => ?_)
    exact opened ⟨place, placed, made, opening⟩

theorem extends_writeOutput (fs : FileSystem) (faults : Faults) (path : Path)
    (content : ByteArray) : Extends fs (fs.writeOutput faults path content).1 := by
  rcases fs.writeOutput_cases faults path content with ⟨k, files⟩ | ⟨place, placed, files⟩
  · rw [files]
    exact (settled_above fs path k).extended
  · obtain ⟨inside, free⟩ := free_of_outputPlace placed
    rw [files]
    exact (settled_above fs path 0).extended.trans (.put inside free)

theorem fileAt?_writeOutput_of_opened (placed : fs.outputPlace path = .ok place)
    (made : faults.making = none) (opened : faults.opening = none) (content : ByteArray) :
    (fs.writeOutput faults path content).1.fileAt? place =
        some (written faults.writing content) ∧
      ∀ other, other ≠ place →
        (fs.writeOutput faults path content).1.fileAt? other = fs.fileAt? other := by
  rw [writeOutput_of_opened placed made opened]
  refine ⟨fileAt?_put_same _ _ (free_of_outputPlace placed).1, fun other apart => ?_⟩
  rw [fileAt?_put_other _ _ apart]
  exact (settled_above fs path 0).files other

theorem fileAt?_writeOutput_of_unopened (path : Path) (content : ByteArray)
    (unopened : faults.making = none → faults.opening = none →
      ∀ place, fs.outputPlace path ≠ .ok place) (other : Location) :
    (fs.writeOutput faults path content).1.fileAt? other = fs.fileAt? other := by
  obtain ⟨k, files⟩ := writeOutput_of_unopened path content unopened
  rw [files]
  exact (settled_above fs path k).files other

end Writing

/--
What writing outputs may have made of a file system, as far as an output with these directories above
it can tell: making them comes to the same, but for files that have been written.
-/
structure Reached (fs : FileSystem) (chain : List Path) (now : FileSystem) : Prop where
  extended : Extends fs now
  made : Rewrites (fs.makeDirectories chain).1 (now.makeDirectories chain).1
  failure : (now.makeDirectories chain).2 = none ↔ (fs.makeDirectories chain).2 = none

namespace Reached

variable {path : Path} {chain : List Path}

theorem refl (fs : FileSystem) (chain : List Path) : Reached fs chain fs :=
  ⟨.refl fs, .refl _, Iff.rfl⟩

theorem makeDirectories (reached : Reached fs path.above now) (k : Nat) :
    Reached fs path.above (now.makeDirectories (path.above.drop k)).1 := by
  have resumed := resumes_above now path k
  refine ⟨reached.extended.trans (settled_above now path k).extended, ?_, ?_⟩
  · rw [resumed.files]
    exact reached.made
  · rw [resumed.failure, reached.failure]

theorem put {place : Location} (reached : Reached fs path.above now) (inside : place ≠ [])
    (free : (now.makeDirectories path.above).1.shapeAt place = none ∨
      (now.makeDirectories path.above).1.shapeAt place = some .file) (content : ByteArray) :
    Reached fs path.above ((now.makeDirectories path.above).1.put place (.file content)) := by
  have settled := settled_above now path 0
  rw [List.drop_zero] at settled
  obtain ⟨other, again, same⟩ := settled.again _ ((Rewrites.refl _).put inside free)
  refine ⟨reached.extended.trans (settled.extended.trans (.put inside free)), ?_, ?_⟩
  · rw [again]
    exact reached.made.put inside free
  · rw [again, same, reached.failure]

theorem writeOutput (reached : Reached fs path.above now) (faults : Faults)
    (content : ByteArray) : Reached fs path.above (now.writeOutput faults path content).1 := by
  rcases now.writeOutput_cases faults path content with ⟨k, files⟩ | ⟨place, placed, files⟩
  · rw [files]
    exact reached.makeDirectories k
  · obtain ⟨inside, free⟩ := free_of_outputPlace placed
    rw [files]
    exact reached.put inside free _

theorem outputPlace {place : Location} (reached : Reached fs path.above now) :
    now.outputPlace path = .ok place ↔ fs.outputPlace path = .ok place := by
  obtain ⟨_, made, failure⟩ := reached
  rw [FileSystem.outputPlace, FileSystem.outputPlace]
  cases before : fs.makeDirectories path.above with
  | mk begun refused =>
  cases after : now.makeDirectories path.above with
  | mk resumed again =>
  simp only [before, after] at made failure
  cases refused with
  | some cause =>
    obtain ⟨other, rfl⟩ := Option.ne_none_iff_exists'.mp (mt failure.mp (by simp))
    simp
  | none =>
    obtain rfl : again = none := failure.mpr rfl
    simp only [made.working]
    split_ifs
    · rfl
    · rcases made.placeFor linkBound (startOf begun.working path) path.segments with
        unmoved | ⟨missing, blocked⟩
      · rw [unmoved]
      · simp [missing, blocked]

end Reached

end FileSystem

end Tangle
