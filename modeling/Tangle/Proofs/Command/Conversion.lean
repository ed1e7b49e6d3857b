import Mathlib.Tactic.SplitIfs
import Tangle.Command.Run
import Tangle.Proofs.Files.Finding
import Tangle.Proofs.Files.Output

/-!
Documents converted one after the other. A run is its attempts in a row (`foldl_step`): each reads
one document and prints its source or writes at most one file (`fileAt?_attempt_of_writes`,
`fileAt?_attempt_of_other`). While a run goes on, the directories that outputs go into are made, in
full or in part, and files are written, and neither moves the place of a document or of an output
(`Ready.steady`). So what a document comes to depends on what the run has done only through the
bytes of its file (`Steady.sourced_iff`, `Steady.outputPlace`).
-/

namespace Tangle

namespace Conversion

def target? (conversion : Conversion) (fs : FileSystem) (document : Path) : Option Location :=
  (fs.outputPlace (conversion.output document)).toOption

/-- A document is read, and a source is generated from its bytes. -/
def Sourced (conversion : Conversion) (fs : FileSystem) (document : Path)
    (generated : Generated) : Prop :=
  (conversion.faults document).reading = none ∧ ∃ content, fs.read document = .ok content ∧
    generate conversion.parser document.documentName content = .ok generated

def Opens (conversion : Conversion) (document : Path) : Prop :=
  (conversion.faults document).making = none ∧ (conversion.faults document).opening = none

/-- A document is read, its source is generated, and this is printed or written to the end. -/
structure Succeeds (conversion : Conversion) (fs : FileSystem) (document : Path)
    (generated : Generated) : Prop where
  sourced : conversion.Sourced fs document generated
  prints : conversion.toStdout = true → (conversion.faults document).printing = none
  writes : conversion.toStdout = false → conversion.Opens document ∧
    (conversion.faults document).writing = none ∧
    ∃ place, fs.outputPlace (conversion.output document) = .ok place

/-- The file at a place is opened for the source of a document. -/
structure Writes (conversion : Conversion) (fs : FileSystem) (document : Path)
    (generated : Generated) (place : Location) : Prop where
  toFile : conversion.toStdout = false
  sourced : conversion.Sourced fs document generated
  opens : conversion.Opens document
  placed : fs.outputPlace (conversion.output document) = .ok place

def held (conversion : Conversion) (document : Path) (generated : Generated) : ByteArray :=
  FileSystem.written (conversion.faults document).writing generated.source.toUTF8

/-- Why a document fails, and with which error. -/
inductive FailsWith (conversion : Conversion) (fs : FileSystem) (document : Path) :
    Failure → Prop where
  | unreadable {reason : String} (refused : (conversion.faults document).reading = some reason) :
    FailsWith conversion fs document (.file ⟨document, .other reason⟩)
  | unread {error : FileError} (allowed : (conversion.faults document).reading = none)
    (failed : fs.read document = .error error) :
    FailsWith conversion fs document (.file error)
  | ungenerated {content : ByteArray} {error : GenerationError}
    (allowed : (conversion.faults document).reading = none)
    (read : fs.read document = .ok content)
    (failed : generate conversion.parser document.documentName content = .error error) :
    FailsWith conversion fs document (.generation error)
  | unprinted {generated : Generated} {breach : Breach} (toStdout : conversion.toStdout = true)
    (sourced : conversion.Sourced fs document generated)
    (broken : (conversion.faults document).printing = some breach) :
    FailsWith conversion fs document (.file ⟨Path.ofString "<stdout>", .other breach.reason⟩)
  | unmade {generated : Generated} {breach : Breach} (toFile : conversion.toStdout = false)
    (sourced : conversion.Sourced fs document generated)
    (broken : (conversion.faults document).making = some breach) :
    FailsWith conversion fs document
      (.file ⟨conversion.output document, .other breach.reason⟩)
  | unplaced {generated : Generated} {cause : Cause} (toFile : conversion.toStdout = false)
    (sourced : conversion.Sourced fs document generated)
    (made : (conversion.faults document).making = none)
    (failed : fs.outputPlace (conversion.output document) = .error cause) :
    FailsWith conversion fs document (.file ⟨conversion.output document, cause⟩)
  | unopened {generated : Generated} {place : Location} {reason : String}
    (toFile : conversion.toStdout = false)
    (sourced : conversion.Sourced fs document generated)
    (made : (conversion.faults document).making = none)
    (placed : fs.outputPlace (conversion.output document) = .ok place)
    (refused : (conversion.faults document).opening = some reason) :
    FailsWith conversion fs document (.file ⟨conversion.output document, .other reason⟩)
  | cut {generated : Generated} {place : Location} {breach : Breach}
    (writes : conversion.Writes fs document generated place)
    (broken : (conversion.faults document).writing = some breach) :
    FailsWith conversion fs document
      (.file ⟨conversion.output document, .other breach.reason⟩)

section Attempts

variable {conversion : Conversion} {fs : FileSystem} {document : Path} {generated : Generated}
  {place : Location}

theorem target?_eq_some :
    conversion.target? fs document = some place ↔
      fs.outputPlace (conversion.output document) = .ok place := by
  rw [target?]
  cases fs.outputPlace (conversion.output document) <;> simp [Except.toOption]

theorem source_eq_ok :
    conversion.source fs document = .ok generated ↔ conversion.Sourced fs document generated := by
  rw [source, Sourced]
  unfold FileSystem.readUnless
  cases (conversion.faults document).reading with
  | some reason => simp [Except.mapError, bind, Except.bind]
  | none =>
    cases fs.read document with
    | error error => simp [Except.mapError, bind, Except.bind]
    | ok content =>
      simp only [Except.mapError, bind, Except.bind, Except.ok.injEq, exists_eq_left', true_and]
      cases generate conversion.parser document.documentName content <;> simp

theorem Sourced.unique {other : Generated} (first : conversion.Sourced fs document generated)
    (second : conversion.Sourced fs document other) : generated = other :=
  Except.ok.inj ((source_eq_ok.mpr first).symm.trans (source_eq_ok.mpr second))

theorem failsWith_of_source {failure : Failure}
    (failed : conversion.source fs document = .error failure) :
    conversion.FailsWith fs document failure := by
  rw [source] at failed
  unfold FileSystem.readUnless at failed
  cases reading : (conversion.faults document).reading with
  | some reason =>
    rw [reading] at failed
    obtain rfl := Except.error.inj failed
    exact .unreadable reading
  | none =>
    rw [reading] at failed
    cases read : fs.read document with
    | error error =>
      rw [read] at failed
      obtain rfl := Except.error.inj failed
      exact .unread reading read
    | ok content =>
      rw [read] at failed
      simp only [Except.mapError, bind, Except.bind] at failed
      cases made : generate conversion.parser document.documentName content with
      | ok generated =>
        rw [made] at failed
        cases failed
      | error error =>
        rw [made] at failed
        obtain rfl := Except.error.inj failed
        exact .ungenerated reading read made

theorem attempt_of_source_error {failure : Failure}
    (failed : conversion.source fs document = .error failure) :
    conversion.attempt fs document = ⟨fs, [], .error failure⟩ := by
  rw [attempt, failed]

theorem attempt_of_printing (toStdout : conversion.toStdout = true)
    (sourced : conversion.Sourced fs document generated) :
    conversion.attempt fs document =
      match (conversion.faults document).printing with
      | none => ⟨fs, Text.encode generated.source, .ok generated⟩
      | some breach => ⟨fs, (Text.encode generated.source).take breach.done,
          .error (.file ⟨Path.ofString "<stdout>", .other breach.reason⟩)⟩ := by
  rw [attempt, source_eq_ok.mpr sourced]
  simp only [toStdout, if_true, printText]
  cases (conversion.faults document).printing <;> rfl

theorem attempt_of_writing (toFile : conversion.toStdout = false)
    (sourced : conversion.Sourced fs document generated) :
    conversion.attempt fs document =
      ⟨(fs.writeOutput (conversion.faults document) (conversion.output document)
          generated.source.toUTF8).1, [],
        ((fs.writeOutput (conversion.faults document) (conversion.output document)
          generated.source.toUTF8).2.mapError .file).map fun _ => generated⟩ := by
  rw [attempt, source_eq_ok.mpr sourced]
  simp only [toFile, Bool.false_eq_true, if_false]

theorem attempt_cases (conversion : Conversion) (fs : FileSystem) (document : Path) :
    (∃ failure, conversion.source fs document = .error failure) ∨
    (∃ generated, conversion.toStdout = true ∧ conversion.Sourced fs document generated) ∨
    ∃ generated, conversion.toStdout = false ∧ conversion.Sourced fs document generated := by
  cases made : conversion.source fs document with
  | error failure => exact .inl ⟨failure, rfl⟩
  | ok generated =>
    have sourced := source_eq_ok.mp made
    cases toStdout : conversion.toStdout with
    | true => exact .inr (.inl ⟨generated, rfl, sourced⟩)
    | false => exact .inr (.inr ⟨generated, rfl, sourced⟩)

theorem attempt_result (conversion : Conversion) (fs : FileSystem) (document : Path) :
    (∃ generated, (conversion.attempt fs document).result = .ok generated ∧
      conversion.Succeeds fs document generated) ∨
    ∃ failure, (conversion.attempt fs document).result = .error failure ∧
      conversion.FailsWith fs document failure ∧
      ∀ generated, ¬conversion.Succeeds fs document generated := by
  rcases conversion.attempt_cases fs document with
    ⟨failure, failed⟩ | ⟨generated, toStdout, sourced⟩ | ⟨generated, toFile, sourced⟩
  · refine .inr ⟨failure, by rw [attempt_of_source_error failed], failsWith_of_source failed, ?_⟩
    intro generated succeeds
    rw [source_eq_ok.mpr succeeds.sourced] at failed
    cases failed
  · rw [attempt_of_printing toStdout sourced]
    cases printing : (conversion.faults document).printing with
    | none => exact .inl ⟨generated, rfl, sourced, fun _ => printing, by simp [toStdout]⟩
    | some breach =>
      refine .inr ⟨_, rfl, .unprinted toStdout sourced printing, fun generated succeeds => ?_⟩
      rw [succeeds.prints toStdout] at printing
      cases printing
  · rw [attempt_of_writing toFile sourced, FileSystem.writeOutput_eq]
    cases making : (conversion.faults document).making with
    | some breach =>
      refine .inr ⟨_, rfl, .unmade toFile sourced making, fun generated succeeds => ?_⟩
      rw [(succeeds.writes toFile).1.1] at making
      cases making
    | none =>
      cases placed : fs.outputPlace (conversion.output document) with
      | error cause =>
        refine .inr ⟨_, rfl, .unplaced toFile sourced making placed, fun generated succeeds => ?_⟩
        obtain ⟨_, _, place, goes⟩ := succeeds.writes toFile
        rw [goes] at placed
        cases placed
      | ok place =>
        cases opening : (conversion.faults document).opening with
        | some reason =>
          refine .inr ⟨_, rfl, .unopened toFile sourced making placed opening,
            fun generated succeeds => ?_⟩
          rw [(succeeds.writes toFile).1.2] at opening
          cases opening
        | none =>
          have opens : conversion.Opens document := ⟨making, opening⟩
          cases writing : (conversion.faults document).writing with
          | none =>
            exact .inl ⟨generated, rfl, sourced, by simp [toFile],
              fun _ => ⟨opens, writing, place, placed⟩⟩
          | some breach =>
            refine .inr ⟨_, rfl, .cut ⟨toFile, sourced, opens, placed⟩ writing,
              fun generated succeeds => ?_⟩
            rw [(succeeds.writes toFile).2.1] at writing
            cases writing

theorem attempt_eq_ok :
    (conversion.attempt fs document).result = .ok generated ↔
      conversion.Succeeds fs document generated := by
  rcases conversion.attempt_result fs document with
    ⟨found, done, succeeds⟩ | ⟨failure, failed, _, never⟩
  · rw [done, Except.ok.injEq]
    constructor
    · rintro rfl
      exact succeeds
    · exact fun again => succeeds.sourced.unique again.sourced
  · rw [failed]
    exact ⟨by simp, fun succeeds => absurd succeeds (never generated)⟩

theorem failsWith_of_attempt {failure : Failure}
    (failed : (conversion.attempt fs document).result = .error failure) :
    conversion.FailsWith fs document failure := by
  rcases conversion.attempt_result fs document with
    ⟨found, done, _⟩ | ⟨first, refused, fails, _⟩
  · rw [done] at failed
    cases failed
  · rw [refused] at failed
    obtain rfl := Except.error.inj failed
    exact fails

theorem files_attempt (conversion : Conversion) (fs : FileSystem) (document : Path) :
    (conversion.attempt fs document).files = fs ∨
      ∃ content, (conversion.attempt fs document).files =
        (fs.writeOutput (conversion.faults document) (conversion.output document) content).1 := by
  rcases conversion.attempt_cases fs document with
    ⟨failure, failed⟩ | ⟨generated, toStdout, sourced⟩ | ⟨generated, toFile, sourced⟩
  · exact .inl (by rw [attempt_of_source_error failed])
  · rw [attempt_of_printing toStdout sourced]
    cases (conversion.faults document).printing <;> exact .inl rfl
  · exact .inr ⟨_, by rw [attempt_of_writing toFile sourced]⟩

theorem files_attempt_of_toStdout (toStdout : conversion.toStdout = true) (fs : FileSystem)
    (document : Path) : (conversion.attempt fs document).files = fs := by
  rcases conversion.attempt_cases fs document with
    ⟨failure, failed⟩ | ⟨generated, _, sourced⟩ | ⟨generated, toFile, _⟩
  · rw [attempt_of_source_error failed]
  · rw [attempt_of_printing toStdout sourced]
    cases (conversion.faults document).printing <;> rfl
  · rw [toStdout] at toFile
    cases toFile

theorem extends_attempt (conversion : Conversion) (fs : FileSystem) (document : Path) :
    fs.Extends (conversion.attempt fs document).files := by
  rcases conversion.files_attempt fs document with same | ⟨content, files⟩
  · rw [same]
    exact .refl fs
  · rw [files]
    exact FileSystem.extends_writeOutput _ _ _ _

theorem fileAt?_attempt_of_writes (writes : conversion.Writes fs document generated place) :
    (conversion.attempt fs document).files.fileAt? place =
        some (conversion.held document generated) ∧
      ∀ other, other ≠ place →
        (conversion.attempt fs document).files.fileAt? other = fs.fileAt? other := by
  rw [attempt_of_writing writes.toFile writes.sourced]
  exact FileSystem.fileAt?_writeOutput_of_opened writes.placed writes.opens.1 writes.opens.2 _

theorem fileAt?_attempt_of_other
    (apart : ∀ generated, ¬conversion.Writes fs document generated place) :
    (conversion.attempt fs document).files.fileAt? place = fs.fileAt? place := by
  rcases conversion.attempt_cases fs document with
    ⟨failure, failed⟩ | ⟨generated, toStdout, _⟩ | ⟨generated, toFile, sourced⟩
  · rw [attempt_of_source_error failed]
  · rw [files_attempt_of_toStdout toStdout]
  · by_cases opened : ∃ target, conversion.Writes fs document generated target
    · obtain ⟨target, writes⟩ := opened
      refine (fileAt?_attempt_of_writes writes).2 place ?_
      rintro rfl
      exact apart generated writes
    · rw [attempt_of_writing toFile sourced]
      refine FileSystem.fileAt?_writeOutput_of_unopened _ _ (fun made opening target placed => ?_) _
      exact opened ⟨target, toFile, sourced, ⟨made, opening⟩, placed⟩

theorem locate_of_writes {later : FileSystem}
    (writes : conversion.Writes fs document generated place)
    (kept : (conversion.attempt fs document).files.Extends later)
    (file : later.shapeAt place = some .file) :
    later.locate (conversion.output document) = .ok place := by
  obtain ⟨inside, free⟩ := FileSystem.free_of_outputPlace writes.placed
  have opened : (fs.makeDirectories (conversion.output document).above).1.Extends
      ((fs.makeDirectories (conversion.output document).above).1.put place
        (.file (conversion.held document generated))) := .put inside free
  rw [attempt_of_writing writes.toFile writes.sourced, FileSystem.writeOutput_of_opened
    writes.placed writes.opens.1 writes.opens.2] at kept
  exact FileSystem.locate_of_outputPlace writes.placed (opened.trans kept) file

end Attempts

/-- The documents of a run, each with the file system that it is converted in. -/
def stages (conversion : Conversion) : FileSystem → List Path → List (Path × FileSystem)
  | _, [] => []
  | fs, document :: rest =>
    (document, fs) :: conversion.stages (conversion.attempt fs document).files rest

def left (conversion : Conversion) (fs : FileSystem) (documents : List Path) : FileSystem :=
  documents.foldl (fun files document => (conversion.attempt files document).files) fs

section Stages

variable {conversion : Conversion} {fs : FileSystem}

theorem map_fst_stages (conversion : Conversion) (fs : FileSystem) (documents : List Path) :
    (conversion.stages fs documents).map Prod.fst = documents := by
  induction documents generalizing fs with
  | nil => rfl
  | cons document rest ih => rw [stages, List.map_cons, ih]

theorem mem_of_mem_stages {documents : List Path} {stage : Path × FileSystem}
    (member : stage ∈ conversion.stages fs documents) : stage.1 ∈ documents := by
  rw [← conversion.map_fst_stages fs documents]
  exact List.mem_map_of_mem member

theorem exists_stage (conversion : Conversion) (fs : FileSystem) {documents : List Path}
    {document : Path} (member : document ∈ documents) :
    ∃ now, (document, now) ∈ conversion.stages fs documents := by
  rw [← conversion.map_fst_stages fs documents] at member
  obtain ⟨⟨_, now⟩, listed, rfl⟩ := List.mem_map.mp member
  exact ⟨now, listed⟩

theorem left_append (fs : FileSystem) (first second : List Path) :
    conversion.left fs (first ++ second) = conversion.left (conversion.left fs first) second :=
  List.foldl_append

theorem exists_append_of_stages {documents : List Path} {stage : Path × FileSystem}
    {earlier later : List (Path × FileSystem)}
    (parts : conversion.stages fs documents = earlier ++ stage :: later) :
    ∃ before after, documents = before ++ stage.1 :: after ∧
      earlier = conversion.stages fs before ∧ stage.2 = conversion.left fs before ∧
      later = conversion.stages (conversion.attempt stage.2 stage.1).files after := by
  induction earlier generalizing fs documents with
  | nil =>
    cases documents with
    | nil => cases parts
    | cons document rest =>
      obtain ⟨rfl, rfl⟩ := List.cons.inj parts
      exact ⟨[], rest, rfl, rfl, rfl, rfl⟩
  | cons first earlier ih =>
    cases documents with
    | nil => cases parts
    | cons document rest =>
      obtain ⟨rfl, others⟩ := List.cons.inj parts
      obtain ⟨before, after, rfl, rfl, now, rest⟩ := ih others
      exact ⟨document :: before, after, rfl, rfl, now, rest⟩

/-- What every attempt preserves holds at every stage and at the end. -/
theorem of_stages {motive : FileSystem → Prop} {documents : List Path}
    (step : ∀ now, ∀ document ∈ documents, motive now →
      motive (conversion.attempt now document).files) (start : motive fs) :
    (∀ stage ∈ conversion.stages fs documents, motive stage.2) ∧
      motive (conversion.left fs documents) := by
  induction documents generalizing fs with
  | nil => exact ⟨by simp [stages], start⟩
  | cons document rest ih =>
    have next := step fs document List.mem_cons_self start
    obtain ⟨stages, final⟩ :=
      ih (fun now other member => step now other (List.mem_cons_of_mem _ member)) next
    refine ⟨fun stage member => ?_, final⟩
    rcases List.mem_cons.mp member with rfl | later
    · exact start
    · exact stages stage later

theorem extends_left (fs : FileSystem) (documents : List Path) :
    fs.Extends (conversion.left fs documents) := by
  have step : ∀ now, ∀ document ∈ documents, fs.Extends now →
      fs.Extends (conversion.attempt now document).files :=
    fun now document _ kept => kept.trans (conversion.extends_attempt now document)
  exact (of_stages step (.refl fs)).2

theorem fileAt?_left {documents : List Path} {place : Location}
    (apart : ∀ stage ∈ conversion.stages fs documents, ∀ generated,
      ¬conversion.Writes stage.2 stage.1 generated place) :
    (conversion.left fs documents).fileAt? place = fs.fileAt? place := by
  induction documents generalizing fs with
  | nil => rfl
  | cons document rest ih =>
    obtain ⟨first, later⟩ := List.forall_mem_cons.mp apart
    exact (ih later).trans (fileAt?_attempt_of_other first)

/-- A file that is opened for a document, and for none after it, holds what was written then. -/
theorem read_left_of_writes {documents : List Path} {document : Path} {now : FileSystem}
    {earlier later : List (Path × FileSystem)} {generated : Generated} {place : Location}
    (parts : conversion.stages fs documents = earlier ++ (document, now) :: later)
    (writes : conversion.Writes now document generated place)
    (apart : ∀ stage ∈ later, ∀ other, ¬conversion.Writes stage.2 stage.1 other place) :
    (conversion.left fs documents).fileAt? place = some (conversion.held document generated) ∧
      (conversion.left fs documents).read (conversion.output document) =
        .ok (conversion.held document generated) := by
  obtain ⟨before, after, rfl, _, rfl, rfl⟩ := exists_append_of_stages parts
  rw [left_append]
  have held := (fileAt?_left apart).trans (fileAt?_attempt_of_writes writes).1
  have leads := locate_of_writes writes (extends_left _ after)
    (FileSystem.shapeAt_of_fileAt? held)
  exact ⟨held, FileSystem.read_eq_ok.mpr ⟨place, leads, held⟩⟩

theorem left_of_toStdout (toStdout : conversion.toStdout = true) (fs : FileSystem)
    (documents : List Path) : conversion.left fs documents = fs := by
  have step : ∀ now, ∀ document ∈ documents, now = fs →
      (conversion.attempt now document).files = fs := by
    rintro now document _ rfl
    exact files_attempt_of_toStdout toStdout now document
  exact (of_stages step rfl).2

end Stages

section Results

variable (conversion : Conversion)

def converted (stages : List (Path × FileSystem)) : List (Path × Generated) :=
  stages.filterMap fun stage =>
    (conversion.attempt stage.2 stage.1).result.toOption.map (stage.1, ·)

def failed (stages : List (Path × FileSystem)) : List (Path × Failure) :=
  stages.filterMap fun stage =>
    match (conversion.attempt stage.2 stage.1).result with
    | .ok _ => none
    | .error failure => some (stage.1, failure)

def printed (stages : List (Path × FileSystem)) : List UInt8 :=
  stages.flatMap fun stage => (conversion.attempt stage.2 stage.1).printed

variable {conversion} {stages : List (Path × FileSystem)} {stage : Path × FileSystem}

theorem converted_cons_of_ok {generated : Generated}
    (done : (conversion.attempt stage.2 stage.1).result = .ok generated) :
    conversion.converted (stage :: stages) =
      (stage.1, generated) :: conversion.converted stages := by
  simp [converted, done, Except.toOption]

theorem converted_cons_of_error {failure : Failure}
    (refused : (conversion.attempt stage.2 stage.1).result = .error failure) :
    conversion.converted (stage :: stages) = conversion.converted stages := by
  simp [converted, refused, Except.toOption]

theorem failed_cons_of_ok {generated : Generated}
    (done : (conversion.attempt stage.2 stage.1).result = .ok generated) :
    conversion.failed (stage :: stages) = conversion.failed stages := by
  simp [failed, done]

theorem failed_cons_of_error {failure : Failure}
    (refused : (conversion.attempt stage.2 stage.1).result = .error failure) :
    conversion.failed (stage :: stages) = (stage.1, failure) :: conversion.failed stages := by
  simp [failed, refused]

theorem mem_converted {document : Path} {generated : Generated} :
    (document, generated) ∈ conversion.converted stages ↔
      ∃ now, (document, now) ∈ stages ∧ conversion.Succeeds now document generated := by
  simp only [converted, List.mem_filterMap, ← attempt_eq_ok]
  constructor
  · rintro ⟨⟨document, now⟩, listed, made⟩
    cases result : (conversion.attempt now document).result with
    | error failure => simp [result, Except.toOption] at made
    | ok found =>
      simp only [result, Except.toOption, Option.map_some, Option.some.injEq, Prod.mk.injEq]
        at made
      obtain ⟨rfl, rfl⟩ := made
      exact ⟨now, listed, result⟩
  · rintro ⟨now, listed, done⟩
    exact ⟨(document, now), listed, by simp [done, Except.toOption]⟩

theorem mem_failed {document : Path} {failure : Failure} :
    (document, failure) ∈ conversion.failed stages ↔ ∃ now, (document, now) ∈ stages ∧
      (conversion.attempt now document).result = .error failure := by
  simp only [failed, List.mem_filterMap]
  constructor
  · rintro ⟨⟨document, now⟩, listed, made⟩
    cases result : (conversion.attempt now document).result with
    | ok found => simp [result] at made
    | error found =>
      simp only [result, Option.some.injEq, Prod.mk.injEq] at made
      obtain ⟨rfl, rfl⟩ := made
      exact ⟨now, listed, result⟩
  · rintro ⟨now, listed, refused⟩
    exact ⟨(document, now), listed, by simp [refused]⟩

theorem order_of_results (conversion : Conversion) (stages : List (Path × FileSystem)) :
    ((conversion.converted stages).map Prod.fst).Sublist (stages.map Prod.fst) ∧
      ((conversion.failed stages).map Prod.fst).Sublist (stages.map Prod.fst) ∧
      ((conversion.converted stages).map Prod.fst ++
        (conversion.failed stages).map Prod.fst).Perm (stages.map Prod.fst) := by
  induction stages with
  | nil => exact ⟨.slnil, .slnil, .nil⟩
  | cons stage rest ih =>
    obtain ⟨first, second, whole⟩ := ih
    cases result : (conversion.attempt stage.2 stage.1).result with
    | ok generated =>
      rw [converted_cons_of_ok result, failed_cons_of_ok result]
      exact ⟨first.cons_cons _, second.cons _, whole.cons _⟩
    | error failure =>
      rw [converted_cons_of_error result, failed_cons_of_error result]
      exact ⟨first.cons _, second.cons_cons _, List.perm_middle.trans (whole.cons _)⟩

theorem order_of_stages (conversion : Conversion) (fs : FileSystem) (documents : List Path) :
    let stages := conversion.stages fs documents
    ((conversion.converted stages).map Prod.fst).Sublist documents ∧
      ((conversion.failed stages).map Prod.fst).Sublist documents ∧
      ((conversion.converted stages).map Prod.fst ++
        (conversion.failed stages).map Prod.fst).Perm documents := by
  intro stages
  have order := conversion.order_of_results stages
  rwa [conversion.map_fst_stages] at order

theorem step_eq (progress : Progress) (document : Path) :
    conversion.step progress document =
      { files := (conversion.attempt progress.files document).files
        printed := progress.printed ++ conversion.printed [(document, progress.files)]
        reports := progress.reports ++ (conversion.converted [(document, progress.files)]).map
          fun entry => conversion.report entry.1 entry.2
        failures := progress.failures ++
          (conversion.failed [(document, progress.files)]).map Prod.snd } := by
  simp only [step, printed, converted, failed, List.flatMap_cons, List.flatMap_nil,
    List.append_nil, List.filterMap_cons, List.filterMap_nil]
  cases (conversion.attempt progress.files document).result <;> simp [Except.toOption]

/-- A run is its attempts in a row. -/
theorem foldl_step (progress : Progress) (documents : List Path) :
    documents.foldl conversion.step progress =
      { files := conversion.left progress.files documents
        printed := progress.printed ++
          conversion.printed (conversion.stages progress.files documents)
        reports := progress.reports ++
          (conversion.converted (conversion.stages progress.files documents)).map
            fun entry => conversion.report entry.1 entry.2
        failures := progress.failures ++
          (conversion.failed (conversion.stages progress.files documents)).map Prod.snd } := by
  induction documents generalizing progress with
  | nil => simp [left, stages, converted, failed, printed]
  | cons document rest ih =>
    rw [List.foldl_cons, ih, step_eq]
    simp only [Conversion.stages, printed, converted, failed, List.flatMap_cons,
      List.filterMap_cons, List.flatMap_nil, List.filterMap_nil, List.append_nil,
      List.append_assoc]
    cases (conversion.attempt progress.files document).result <;>
      simp [Except.toOption, left]

theorem all_eq (fs : FileSystem) (documents : List Path) :
    conversion.all fs documents =
      { files := conversion.left fs documents
        printed := conversion.printed (conversion.stages fs documents)
        reports := (conversion.converted (conversion.stages fs documents)).map
          fun entry => conversion.report entry.1 entry.2
        failures := (conversion.failed (conversion.stages fs documents)).map Prod.snd } := by
  rw [all, foldl_step]
  simp

end Results

/--
Documents that are there, and whose outputs need one set of directories or else none that are not
there already.
-/
structure Ready (conversion : Conversion) (fs : FileSystem) (documents : List Path) : Prop where
  located : ∀ document ∈ documents, ∃ place, fs.locate document = .ok place
  above : (∃ chain, ∀ document ∈ documents, (conversion.output document).above = chain) ∨
    ∀ document ∈ documents, ∀ now, fs.Extends now → ∀ k,
      (now.makeDirectories ((conversion.output document).above.drop k)).1 = now

/-- Outputs go into one directory, or else beside their documents, where nothing is made. -/
theorem ready_of_located {conversion : Conversion} {fs : FileSystem} {documents : List Path}
    (located : ∀ document ∈ documents, ∃ place, fs.locate document = .ok place) :
    conversion.Ready fs documents := by
  refine ⟨located, ?_⟩
  cases directory : conversion.outputDirectory with
  | some place =>
    refine .inl ⟨Path.ancestorsFrom place.anchor (Path.core place.segments).reverse, ?_⟩
    intro document _
    rw [output, directory, Path.above_output_some]
  | none =>
    refine .inr fun document member now kept k => ?_
    obtain ⟨place, found⟩ := located document member
    obtain ⟨segments, ⟨more, parts⟩, above⟩ := Path.above_output_none document
    have leads := kept.locate found
    rw [FileSystem.locate] at leads
    split_ifs at leads
    rw [output, directory, above]
    have walked : now.walkFrom FileSystem.linkBound
        (FileSystem.startOf now.working ⟨document.anchor, []⟩) (segments.reverse.reverse ++ more) =
          .ok place := by
      rw [List.reverse_reverse, parts]
      exact leads
    exact FileSystem.makeDirectories_on_way walked k

/-- A file system that a run may come to, as far as the outputs of its documents can tell. -/
def Steady (conversion : Conversion) (fs : FileSystem) (documents : List Path)
    (now : FileSystem) : Prop :=
  fs.Extends now ∧ ∀ document ∈ documents, fs.Reached (conversion.output document).above now

section Readiness

variable {conversion : Conversion} {fs now : FileSystem} {documents : List Path}
  {document : Path} {generated : Generated} {place : Location}

theorem Ready.subset {part : List Path} (ready : conversion.Ready fs documents)
    (among : part ⊆ documents) : conversion.Ready fs part := by
  refine ⟨fun document member => ready.located document (among member), ?_⟩
  rcases ready.above with ⟨chain, same⟩ | quiet
  · exact .inl ⟨chain, fun document member => same document (among member)⟩
  · exact .inr fun document member => quiet document (among member)

theorem Ready.reached_writeOutput {other : Path} (ready : conversion.Ready fs documents)
    (member : document ∈ documents) (listed : other ∈ documents)
    (reached : fs.Reached (conversion.output other).above now) (faults : Faults)
    (content : ByteArray) :
    fs.Reached (conversion.output other).above
      (now.writeOutput faults (conversion.output document) content).1 := by
  rcases ready.above with ⟨chain, same⟩ | quiet
  · have alike : (conversion.output other).above = (conversion.output document).above := by
      rw [same other listed, same document member]
    rw [alike] at reached ⊢
    exact reached.writeOutput faults content
  · have unmade := quiet document member now reached.extended
    have still := quiet other listed now reached.extended 0
    rw [List.drop_zero] at still
    rcases now.writeOutput_cases faults (conversion.output document) content with
      ⟨k, files⟩ | ⟨place, placed, files⟩
    · rw [files, unmade k]
      exact reached
    · obtain ⟨inside, free⟩ := FileSystem.free_of_outputPlace placed
      have begun := unmade 0
      rw [List.drop_zero] at begun
      rw [begun] at files free
      rw [files]
      have moved := reached.put inside (by rw [still]; exact free)
        (FileSystem.written faults.writing content)
      rw [still] at moved
      exact moved

theorem Ready.steady_attempt (ready : conversion.Ready fs documents)
    (member : document ∈ documents) (steady : conversion.Steady fs documents now) :
    conversion.Steady fs documents (conversion.attempt now document).files := by
  refine ⟨steady.1.trans (conversion.extends_attempt now document), fun other listed => ?_⟩
  rcases conversion.files_attempt now document with same | ⟨content, files⟩
  · rw [same]
    exact steady.2 other listed
  · rw [files]
    exact ready.reached_writeOutput member listed (steady.2 other listed) _ _

theorem Steady.refl (fs : FileSystem) (documents : List Path) :
    conversion.Steady fs documents fs :=
  ⟨.refl fs, fun _ _ => .refl fs _⟩

/-- No stage of a run moves the place of an output. -/
theorem Ready.steady (ready : conversion.Ready fs documents) :
    (∀ stage ∈ conversion.stages fs documents, conversion.Steady fs documents stage.2) ∧
      conversion.Steady fs documents (conversion.left fs documents) :=
  of_stages (fun _ _ => ready.steady_attempt) (.refl fs documents)

theorem Steady.outputPlace (steady : conversion.Steady fs documents now)
    (member : document ∈ documents) (place : Location) :
    now.outputPlace (conversion.output document) = .ok place ↔
      fs.outputPlace (conversion.output document) = .ok place :=
  (steady.2 document member).outputPlace

theorem Steady.target?_of_writes (steady : conversion.Steady fs documents now)
    (member : document ∈ documents) (writes : conversion.Writes now document generated place) :
    conversion.target? fs document = some place :=
  target?_eq_some.mpr ((steady.outputPlace member place).mp writes.placed)

theorem Steady.read_eq_ok {content : ByteArray} (ready : conversion.Ready fs documents)
    (steady : conversion.Steady fs documents now) (member : document ∈ documents)
    (same : ∀ place, fs.locate document = .ok place → now.fileAt? place = fs.fileAt? place) :
    now.read document = .ok content ↔ fs.read document = .ok content := by
  obtain ⟨place, found⟩ := ready.located document member
  rw [FileSystem.read_eq_ok, FileSystem.read_eq_ok, steady.1.locate found, found]
  simp [same place found]

theorem Steady.sourced_iff (ready : conversion.Ready fs documents)
    (steady : conversion.Steady fs documents now) (member : document ∈ documents)
    (same : ∀ place, fs.locate document = .ok place → now.fileAt? place = fs.fileAt? place)
    (generated : Generated) :
    conversion.Sourced now document generated ↔ conversion.Sourced fs document generated := by
  simp only [Sourced, steady.read_eq_ok ready member same]

end Readiness

end Conversion

namespace Options

def conversion (options : Options) (toolkit : Toolkit) (machine : Machine) (fs : FileSystem) :
    Conversion :=
  ⟨toolkit.parser,
    (options.settings (fs.settings toolkit.settings machine.settings)).outputPath?,
    options.toStdout, machine.documents⟩

def documents (options : Options) (toolkit : Toolkit) (machine : Machine) (fs : FileSystem) :
    Except FileError (List Path) :=
  fs.findDocuments (toolkit.walk fs)
    (options.settings (fs.settings toolkit.settings machine.settings)).fileExtensions
    options.paths

def signs (options : Options) (toolkit : Toolkit) (machine : Machine) (fs : FileSystem) : Bool :=
  (options.settings (fs.settings toolkit.settings machine.settings)).emitSignatures

variable {options : Options} {toolkit : Toolkit} {machine : Machine} {fs : FileSystem}
  {documents : List Path}

theorem ready (truthful : fs.Truthful (toolkit.walk fs))
    (found : options.documents toolkit machine fs = .ok documents) :
    (options.conversion toolkit machine fs).Ready fs documents := by
  apply Conversion.ready_of_located
  intro document member
  obtain ⟨place, located, _⟩ := FileSystem.locate_of_found truthful found document member
  exact ⟨place, located⟩

theorem run_eq (found : options.documents toolkit machine fs = .ok documents)
    (some : documents ≠ []) :
    options.run toolkit machine fs =
      ((options.conversion toolkit machine fs).all fs documents).outcome
        (options.signs toolkit machine fs) machine.report := by
  rw [Options.documents] at found
  rw [run]
  simp only [found]
  cases documents with
  | nil => exact absurd rfl some
  | cons first rest => rfl

theorem run_eq_of_none (found : options.documents toolkit machine fs = .ok []) :
    options.run toolkit machine fs =
      { exitCode := 0, messages := ["No matching files found"], files := fs } := by
  rw [Options.documents] at found
  rw [run]
  simp only [found]

theorem files_run (found : options.documents toolkit machine fs = .ok documents) :
    (options.run toolkit machine fs).files =
      (options.conversion toolkit machine fs).left fs documents := by
  cases documents with
  | nil => rw [run_eq_of_none found]; rfl
  | cons first rest => rw [run_eq found (by simp), Conversion.all_eq]; rfl

theorem reports_run (found : options.documents toolkit machine fs = .ok documents) :
    (options.run toolkit machine fs).reports =
      ((options.conversion toolkit machine fs).converted
        ((options.conversion toolkit machine fs).stages fs documents)).map fun entry =>
          (options.conversion toolkit machine fs).report entry.1 entry.2 := by
  cases documents with
  | nil => rw [run_eq_of_none found]; rfl
  | cons first rest => rw [run_eq found (by simp), Conversion.all_eq]; rfl

theorem stdout_run (found : options.documents toolkit machine fs = .ok documents) :
    ∃ rest, (options.run toolkit machine fs).stdout =
      (options.conversion toolkit machine fs).printed
        ((options.conversion toolkit machine fs).stages fs documents) ++ rest := by
  cases documents with
  | nil => exact ⟨[], by rw [run_eq_of_none found]; rfl⟩
  | cons first rest => exact ⟨_, by rw [run_eq found (by simp), Conversion.all_eq]; rfl⟩

theorem exitCode_run_of_unfailed (found : options.documents toolkit machine fs = .ok documents)
    (unfailed : (options.conversion toolkit machine fs).failed
      ((options.conversion toolkit machine fs).stages fs documents) = [])
    (whole : machine.report = none) : (options.run toolkit machine fs).exitCode = 0 := by
  cases documents with
  | nil => rw [run_eq_of_none found]
  | cons first rest =>
    rw [run_eq found (by simp), Conversion.all_eq]
    simp [Progress.outcome, unfailed, whole]

theorem documents_of_found {part : List Path} (truthful : fs.Truthful (toolkit.walk fs))
    (found : options.documents toolkit machine fs = .ok documents)
    (within : part.Sublist documents) (other : Machine) :
    ({ options with paths := part } : Options).documents toolkit other fs = .ok part :=
  FileSystem.findDocuments_of_increasing
    ((FileSystem.increasing_of_found found).sublist within) fun document member =>
      FileSystem.locate_of_found truthful found document (within.subset member)

end Options

theorem run_of_accepted {toolkit : Toolkit} {arguments : List (List UInt8)} {options : Options}
    (accepted : toolkit.arguments arguments = .ok options) (machine : Machine)
    (fs : FileSystem) : run toolkit machine fs arguments = options.run toolkit machine fs := by
  rw [run, accepted]

end Tangle
