import Tangle.Proofs.Command.Isolation

/-!
What a run may write over. Nothing keeps the path of an output apart from those of documents and
other outputs, so a run can lose a document (`run_overwrites_document`) or a source. It loses no
others: a document holds its bytes unless its file was opened for a source, and a source that was
reported holds unless its file was opened for a later one (`run_keeps_unless_overwritten`).
-/

namespace Tangle

namespace Conversion

/-- The file at a place is opened at one of these stages, for a source that goes there. -/
def Overwrites (conversion : Conversion) (fs : FileSystem) (stages : List (Path × FileSystem))
    (place : Location) : Prop :=
  ∃ stage ∈ stages, conversion.Opens stage.1 ∧
    fs.outputPlace (conversion.output stage.1) = .ok place ∧
    ∃ generated, conversion.Sourced stage.2 stage.1 generated

def Spares (conversion : Conversion) (fs : FileSystem) (stages : List (Path × FileSystem))
    (path : Path) : Prop :=
  ∀ place, fs.locate path = .ok place → ¬conversion.Overwrites fs stages place

/-- Every document holds what it held, and every source is where the report says. -/
structure Keeps (conversion : Conversion) (fs : FileSystem) (documents : List Path)
    (entries : List (Path × Generated)) (final : FileSystem) : Prop where
  inputs : ∀ document ∈ documents, ∀ content,
    fs.read document = .ok content → final.read document = .ok content
  sources : ∀ entry ∈ entries,
    (∃ content, fs.read entry.1 = .ok content ∧
      generate conversion.parser entry.1.documentName content = .ok entry.2) ∧
    final.read (conversion.output entry.1) = .ok entry.2.source.toUTF8

section Keeping

variable {conversion : Conversion} {fs : FileSystem} {documents : List Path} {document : Path}
  (ready : conversion.Ready fs documents)
include ready

theorem Ready.overwrites_of_writes {stages : List (Path × FileSystem)} {generated : Generated}
    {stage : Path × FileSystem} {place : Location} (member : stage ∈ stages)
    (listed : stage ∈ conversion.stages fs documents)
    (writes : conversion.Writes stage.2 stage.1 generated place) :
    conversion.Overwrites fs stages place := by
  have steady := ready.steady.1 stage listed
  have placed := (steady.outputPlace (mem_of_mem_stages listed) place).mp writes.placed
  exact ⟨stage, member, writes.opens, placed, generated, writes.sourced⟩

theorem Ready.fileAt?_left_of_spares {part : List Path}
    (within : conversion.stages fs part ⊆ conversion.stages fs documents)
    (spared : conversion.Spares fs (conversion.stages fs part) document) (place : Location)
    (located : fs.locate document = .ok place) :
    (conversion.left fs part).fileAt? place = fs.fileAt? place := by
  refine fileAt?_left fun stage listed generated writes => ?_
  exact spared place located (ready.overwrites_of_writes listed (within listed) writes)

variable {now : FileSystem} {earlier later : List (Path × FileSystem)} {generated : Generated}
  (parts : conversion.stages fs documents = earlier ++ (document, now) :: later)
  (succeeds : conversion.Succeeds now document generated)
include parts succeeds

theorem Ready.read_output (toFile : conversion.toStdout = false)
    (left : ∀ place, fs.outputPlace (conversion.output document) = .ok place →
      ¬conversion.Overwrites fs later place) :
    (conversion.left fs documents).read (conversion.output document) =
      .ok generated.source.toUTF8 := by
  have listed : (document, now) ∈ conversion.stages fs documents := by simp [parts]
  obtain ⟨opens, whole, place, goes⟩ := succeeds.writes toFile
  have placed := ((ready.steady.1 _ listed).outputPlace (mem_of_mem_stages listed) place).mp goes
  have read := (read_left_of_writes parts ⟨toFile, succeeds.sourced, opens, goes⟩ ?_).2
  · rw [held, whole] at read
    exact read
  · intro stage behind other again
    have within : stage ∈ conversion.stages fs documents := by simp [parts, behind]
    exact left place placed (ready.overwrites_of_writes behind within again)

theorem Ready.generated_of_spares (spared : conversion.Spares fs earlier document) :
    ∃ content, fs.read document = .ok content ∧
      generate conversion.parser document.documentName content = .ok generated := by
  have listed : (document, now) ∈ conversion.stages fs documents := by simp [parts]
  obtain ⟨_, content, read, made⟩ := succeeds.sourced
  refine ⟨content, ?_, made⟩
  refine ((ready.steady.1 _ listed).read_eq_ok ready (mem_of_mem_stages listed) ?_).mp read
  obtain ⟨before, after, _, rfl, rfl, _⟩ := exists_append_of_stages parts
  exact ready.fileAt?_left_of_spares (by simp [parts]) spared

end Keeping

end Conversion

/--
A run keeps each document whose file was not opened for a source. It keeps each source that was
reported, unless its file was opened for a later one, and this was generated from what the document
held before the run, unless the file of that was opened for an earlier one.
-/
theorem run_keeps_unless_overwritten {toolkit : Toolkit} {machine : Machine} {fs : FileSystem}
    {arguments : List (List UInt8)} {options : Options} {documents : List Path}
    (accepted : toolkit.arguments arguments = .ok options) (writes : options.toStdout = false)
    (truthful : fs.Truthful (toolkit.walk fs))
    (found : options.documents toolkit machine fs = .ok documents) :
    let conversion := options.conversion toolkit machine fs
    let stages := conversion.stages fs documents
    let entries := conversion.converted stages
    let outcome := run toolkit machine fs arguments
    outcome.reports = entries.map (fun entry => conversion.report entry.1 entry.2) ∧
      (∀ document generated, (document, generated) ∈ entries ↔
        ∃ now, (document, now) ∈ stages ∧ conversion.Succeeds now document generated) ∧
      (∀ document ∈ documents, conversion.Spares fs stages document →
        ∀ content, fs.read document = .ok content →
          outcome.files.read document = .ok content) ∧
      ∀ earlier document now later generated, stages = earlier ++ (document, now) :: later →
        (document, generated) ∈ entries →
        ((∀ place, fs.outputPlace (conversion.output document) = .ok place →
            ¬conversion.Overwrites fs later place) →
          outcome.files.read (conversion.output document) = .ok generated.source.toUTF8) ∧
        (conversion.Spares fs earlier document → ∃ content, fs.read document = .ok content ∧
          generate toolkit.parser document.documentName content = .ok generated) := by
  intro conversion stages entries outcome
  have ready : conversion.Ready fs documents := Options.ready truthful found
  have ran : outcome = options.run toolkit machine fs := run_of_accepted accepted machine fs
  rw [ran, Options.files_run found]
  refine ⟨Options.reports_run found, fun _ _ => Conversion.mem_converted, ?_, ?_⟩
  · intro document member spared content held
    refine (ready.steady.2.read_eq_ok ready member ?_).mpr held
    exact ready.fileAt?_left_of_spares (List.Subset.refl _) spared
  · intro earlier document now later generated parts member
    have distinct : (stages.map Prod.fst).Nodup := by
      rw [conversion.map_fst_stages]
      exact (FileSystem.increasing_of_found found).imp fun less same => by simp [same] at less
    obtain ⟨moment, listed, succeeds⟩ := Conversion.mem_converted.mp member
    have here : (document, now) ∈ stages := by simp [parts]
    obtain ⟨_, rfl⟩ := Prod.mk.inj (List.inj_on_of_nodup_map distinct listed here rfl)
    exact ⟨ready.read_output parts succeeds writes, ready.generated_of_spares parts succeeds⟩

/-- Two documents, `m.go.md` and `m.md`, whose sources go to the same file. -/
def collidingFiles : FileSystem where
  entries :=
    [([[0x77]], .directory),
      ([[0x77], Text.encode "m.go.md"], .file "first.\n".toUTF8),
      ([[0x77], Text.encode "m.md"], .file "second\n".toUTF8)]
  working := [[0x77]]

def collidingOptions : Options := { paths := [Path.ofString "m.go.md", Path.ofString "m.md"] }

def collidingConversion : Conversion := collidingOptions.conversion lineToolkit {} collidingFiles

theorem run_keeps_unless_overwritten_collision :
    let outcome := run lineToolkit {} collidingFiles (["m.go.md", "m.md"].map Text.encode)
    lineToolkit.arguments (["m.go.md", "m.md"].map Text.encode) = .ok collidingOptions ∧
      collidingOptions.toStdout = false ∧
      collidingOptions.documents lineToolkit {} collidingFiles = .ok collidingOptions.paths ∧
      outcome.reports = [⟨"m.go.md", some "m.go", []⟩, ⟨"m.md", some "m.go", []⟩] ∧
      outcome.files.read (Path.ofString "m.go.md") = .ok "first.\n".toUTF8 ∧
      outcome.files.read (Path.ofString "m.md") = .ok "second\n".toUTF8 ∧
      outcome.files.read (Path.ofString "m.go") = .ok (footer "m.md").toUTF8 := by
  intro outcome
  have accepted : lineToolkit.arguments (["m.go.md", "m.md"].map Text.encode) =
      .ok collidingOptions := by decide +kernel
  have found : collidingOptions.documents lineToolkit {} collidingFiles =
      .ok collidingOptions.paths := by
    refine FileSystem.findDocuments_of_increasing (by decide +kernel)
      (List.forall_mem_cons.mpr ⟨⟨[[0x77], Text.encode "m.go.md"], ?_⟩,
        List.forall_mem_singleton.mpr ⟨[[0x77], Text.encode "m.md"], ?_⟩⟩) <;>
      decide +kernel
  obtain ⟨reports, _, inputs, sources⟩ := run_keeps_unless_overwritten accepted rfl
    (FileSystem.truthful_visits collidingFiles) found
  have spared : ∀ document ∈ collidingOptions.paths,
      collidingConversion.Spares collidingFiles
        (collidingConversion.stages collidingFiles collidingOptions.paths) document := by
    have apart : ∀ document ∈ collidingOptions.paths, ∀ other ∈ collidingOptions.paths,
        ∀ place ∈ collidingConversion.target? collidingFiles other,
          collidingFiles.locate document ≠ .ok place := by decide +kernel
    intro document member place located overwritten
    obtain ⟨stage, listed, _, placed, _⟩ := overwritten
    exact apart document member stage.1 (Conversion.mem_of_mem_stages listed) place
      (Conversion.target?_eq_some.mpr placed) located
  have goes : collidingConversion.output (Path.ofString "m.md") = Path.ofString "m.go" := by
    decide +kernel
  have last : (Path.ofString "m.md", ⟨footer "m.md", []⟩) ∈ collidingConversion.converted
      (collidingConversion.stages collidingFiles collidingOptions.paths) := by decide +kernel
  refine ⟨accepted, rfl, found, ?_, ?_, ?_, ?_⟩
  · rw [reports]
    decide +kernel
  · exact inputs _ (by simp [collidingOptions]) (spared _ (by simp [collidingOptions])) _
      (by decide +kernel)
  · exact inputs _ (by simp [collidingOptions]) (spared _ (by simp [collidingOptions])) _
      (by decide +kernel)
  · rw [← goes]
    refine (sources [(Path.ofString "m.go.md", collidingFiles)] _ _ [] _ rfl last).1 ?_
    simp [Conversion.Overwrites]

/-- One file, `a.go`, which holds a line of text. -/
def oneFile : FileSystem where
  entries :=
    [([[0x77]], .directory), ([[0x77], Text.encode "a.go"], .file "a file\n".toUTF8)]
  working := [[0x77]]

def oneOptions : Options := { paths := [Path.ofString "a.go"] }

/-- The source of `a.go` goes over `a.go` itself. -/
theorem run_overwrites_document :
    let outcome := run lineToolkit {} oneFile [Text.encode "a.go"]
    lineToolkit.arguments [Text.encode "a.go"] = .ok oneOptions ∧ oneOptions.toStdout = false ∧
      oneOptions.documents lineToolkit {} oneFile = .ok oneOptions.paths ∧
      oneFile.read (Path.ofString "a.go") = .ok "a file\n".toUTF8 ∧
      outcome.files.read (Path.ofString "a.go") = .ok (footer "a.go").toUTF8 ∧
      ∀ entries, ¬(oneOptions.conversion lineToolkit {} oneFile).Keeps oneFile oneOptions.paths
        entries outcome.files := by
  intro outcome
  have accepted : lineToolkit.arguments [Text.encode "a.go"] = .ok oneOptions := by
    decide +kernel
  have found : oneOptions.documents lineToolkit {} oneFile = .ok oneOptions.paths :=
    FileSystem.findDocuments_of_increasing (by decide +kernel) (List.forall_mem_singleton.mpr
      ⟨[[0x77], Text.encode "a.go"], by decide +kernel⟩)
  have before : oneFile.read (Path.ofString "a.go") = .ok "a file\n".toUTF8 := by
    decide +kernel
  have after : outcome.files.read (Path.ofString "a.go") = .ok (footer "a.go").toUTF8 := by
    rw [show outcome = oneOptions.run lineToolkit {} oneFile from run_of_accepted accepted _ _,
      Options.files_run found]
    decide +kernel
  refine ⟨accepted, rfl, found, before, after, fun entries keeps => ?_⟩
  have kept := keeps.inputs _ (List.mem_singleton.mpr rfl) _ before
  rw [after] at kept
  exact absurd kept (by decide +kernel)

end Tangle
