import Mathlib.Data.List.Forall2
import Tangle.Proofs.Command.Conversion
import Tangle.Proofs.Path.Spelling

/-!
Runs in which outputs go to different files and over no document, whatever the operating system
refuses. Each document then fares as it would alone: those that succeed are reported and written in
order, each of the others gives one message, and no file changes but those that were opened
(`run_isolates_documents`). A file that was opened and could not be written to the end is not what it
was, and a message may take more than one line (`run_spoils_unreported`).
-/

namespace Tangle

theorem Outcome.errorLines_of_unbroken {outcome : Outcome} {failures : List Failure}
    (messages : outcome.messages = failures.map fun failure => errorMessage failure.message)
    (unbroken : ∀ failure ∈ failures, '\n' ∉ failure.message.toList) :
    outcome.errorLines = outcome.messages := by
  have lines : outcome.lines = outcome.messages := by
    rw [lines, messages, List.flatMap_map]
    calc failures.flatMap (fun failure =>
          (Text.pieces '\n' (errorMessage failure.message).toList).map String.ofList)
        = failures.flatMap fun failure => [errorMessage failure.message] := by
          refine List.flatMap_congr fun failure member => ?_
          have free : '\n' ∉ (errorMessage failure.message).toList := by
            rw [errorMessage, String.toList_append, List.mem_append, not_or]
            exact ⟨by decide, unbroken failure member⟩
          rw [Text.pieces_of_free free, List.map_singleton, String.ofList_toList]
      _ = failures.map fun failure => errorMessage failure.message := by
          rw [← List.map_eq_flatMap]
  rw [errorLines, lines, List.filter_eq_self, messages]
  intro line member
  obtain ⟨failure, _, rfl⟩ := List.mem_map.mp member
  simp [errorMessage, String.toList_append]

namespace Conversion

/-- The outputs go to different files, and none of these is a document. -/
structure Apart (conversion : Conversion) (fs : FileSystem) (documents : List Path) : Prop where
  outputs : documents.Pairwise fun first second =>
    ∀ place ∈ conversion.target? fs first, place ∉ conversion.target? fs second
  inputs : ∀ first ∈ documents, ∀ second ∈ documents,
    ∀ place ∈ conversion.target? fs first, fs.locate second ≠ .ok place

/-- A file system in which no output has moved and every document is as it was. -/
structure Undisturbed (conversion : Conversion) (fs : FileSystem) (documents : List Path)
    (now : FileSystem) : Prop where
  steady : conversion.Steady fs documents now
  contents : ∀ document ∈ documents, ∀ place, fs.locate document = .ok place →
    now.fileAt? place = fs.fileAt? place

/-- What is printed of a document. -/
inductive Prints (conversion : Conversion) (fs : FileSystem) (document : Path) :
    List UInt8 → Prop where
  | whole {generated : Generated} (succeeds : conversion.Succeeds fs document generated) :
    Prints conversion fs document (Text.encode generated.source)
  | part {generated : Generated} {breach : Breach}
    (sourced : conversion.Sourced fs document generated)
    (broken : (conversion.faults document).printing = some breach) :
    Prints conversion fs document ((Text.encode generated.source).take breach.done)
  | nothing (unsourced : ∀ generated, ¬conversion.Sourced fs document generated) :
    Prints conversion fs document []

section Fares

variable {conversion : Conversion} {fs now : FileSystem} {documents : List Path}
  {document : Path} {generated : Generated} {place : Location}

theorem Apart.sublist {part : List Path} (apart : conversion.Apart fs documents)
    (within : part.Sublist documents) : conversion.Apart fs part where
  outputs := apart.outputs.sublist within
  inputs first member second other :=
    apart.inputs first (within.subset member) second (within.subset other)

theorem Succeeds.transfer (succeeds : conversion.Succeeds fs document generated)
    (sourced : conversion.Sourced now document generated)
    (placed : ∀ place, fs.outputPlace (conversion.output document) = .ok place →
      now.outputPlace (conversion.output document) = .ok place) :
    conversion.Succeeds now document generated := by
  refine ⟨sourced, succeeds.prints, fun toFile => ?_⟩
  obtain ⟨opens, whole, place, goes⟩ := succeeds.writes toFile
  exact ⟨opens, whole, place, placed place goes⟩

section Undisturbed

variable (ready : conversion.Ready fs documents)
  (undisturbed : conversion.Undisturbed fs documents now) (member : document ∈ documents)
include ready undisturbed member

theorem Undisturbed.sourced_iff (generated : Generated) :
    conversion.Sourced now document generated ↔ conversion.Sourced fs document generated :=
  undisturbed.steady.sourced_iff ready member (undisturbed.contents document member) generated

theorem Undisturbed.succeeds_iff :
    conversion.Succeeds now document generated ↔ conversion.Succeeds fs document generated := by
  have sourced := undisturbed.sourced_iff ready member generated
  have placed := undisturbed.steady.outputPlace member
  constructor
  · intro succeeds
    exact succeeds.transfer (sourced.mp succeeds.sourced) fun place => (placed place).mp
  · intro succeeds
    exact succeeds.transfer (sourced.mpr succeeds.sourced) fun place => (placed place).mpr

theorem Undisturbed.writes_iff :
    conversion.Writes now document generated place ↔
      conversion.Writes fs document generated place := by
  have sourced := undisturbed.sourced_iff ready member generated
  have placed := undisturbed.steady.outputPlace member place
  constructor
  · intro writes
    exact ⟨writes.toFile, sourced.mp writes.sourced, writes.opens, placed.mp writes.placed⟩
  · intro writes
    exact ⟨writes.toFile, sourced.mpr writes.sourced, writes.opens, placed.mpr writes.placed⟩

theorem Undisturbed.prints (toStdout : conversion.toStdout = true) :
    conversion.Prints fs document (conversion.attempt now document).printed := by
  have sourced := undisturbed.sourced_iff ready member
  rcases conversion.attempt_cases now document with
    ⟨failure, failed⟩ | ⟨generated, _, found⟩ | ⟨generated, toFile, _⟩
  · rw [attempt_of_source_error failed]
    refine .nothing fun generated made => ?_
    rw [source_eq_ok.mpr ((sourced generated).mpr made)] at failed
    cases failed
  · rw [attempt_of_printing toStdout found]
    have made := (sourced generated).mp found
    cases printing : (conversion.faults document).printing with
    | none => exact .whole ⟨made, fun _ => printing, by simp [toStdout]⟩
    | some breach => exact .part made printing
  · rw [toStdout] at toFile
    cases toFile

end Undisturbed

theorem printed_of_toFile (toFile : conversion.toStdout = false)
    (stages : List (Path × FileSystem)) : conversion.printed stages = [] := by
  refine List.flatMap_eq_nil_iff.mpr fun stage _ => ?_
  rcases conversion.attempt_cases stage.2 stage.1 with
    ⟨failure, failed⟩ | ⟨generated, toStdout, _⟩ | ⟨generated, _, sourced⟩
  · rw [attempt_of_source_error failed]
  · rw [toFile] at toStdout
    cases toStdout
  · rw [attempt_of_writing toFile sourced]

theorem printed_of_unbroken {stages : List (Path × FileSystem)}
    (toStdout : conversion.toStdout = true)
    (unbroken : ∀ stage ∈ stages, (conversion.faults stage.1).printing = none) :
    conversion.printed stages =
      (conversion.converted stages).flatMap fun entry => Text.encode entry.2.source := by
  induction stages with
  | nil => rfl
  | cons stage rest ih =>
    obtain ⟨first, others⟩ := List.forall_mem_cons.mp unbroken
    have later := ih others
    rw [printed] at later ⊢
    rw [List.flatMap_cons, later]
    rcases conversion.attempt_cases stage.2 stage.1 with
      ⟨failure, failed⟩ | ⟨generated, _, sourced⟩ | ⟨generated, toFile, _⟩
    · have is := attempt_of_source_error failed
      rw [converted_cons_of_error (by rw [is]), is]
      rfl
    · have is := attempt_of_printing toStdout sourced
      rw [first] at is
      rw [converted_cons_of_ok (by rw [is]), List.flatMap_cons, is]
    · rw [toStdout] at toFile
      cases toFile

end Fares

namespace Ready

variable {conversion : Conversion} {fs now : FileSystem} {documents : List Path}
  {document : Path} {generated : Generated} {place : Location}
  (ready : conversion.Ready fs documents)
  (apart : conversion.toStdout = false → conversion.Apart fs documents)
include ready apart

theorem undisturbed_attempt (undisturbed : conversion.Undisturbed fs documents now)
    (member : document ∈ documents) :
    conversion.Undisturbed fs documents (conversion.attempt now document).files := by
  refine ⟨ready.steady_attempt member undisturbed.steady, fun other listed place found => ?_⟩
  rw [← undisturbed.contents other listed place found]
  refine fileAt?_attempt_of_other fun generated writes => ?_
  have target := undisturbed.steady.target?_of_writes member writes
  exact (apart writes.toFile).inputs document member other listed place target found

/-- Each document of a run fares as it would alone. -/
theorem undisturbed :
    (∀ stage ∈ conversion.stages fs documents,
      conversion.Undisturbed fs documents stage.2) ∧
      conversion.Undisturbed fs documents (conversion.left fs documents) := by
  refine of_stages ?_ ⟨.refl fs documents, fun _ _ _ _ => rfl⟩
  exact fun now document member before => ready.undisturbed_attempt apart before member

theorem mem_converted_iff :
    (document, generated) ∈ conversion.converted (conversion.stages fs documents) ↔
      document ∈ documents ∧ conversion.Succeeds fs document generated := by
  have stages := (ready.undisturbed apart).1
  rw [mem_converted]
  constructor
  · rintro ⟨now, listed, succeeds⟩
    have member := mem_of_mem_stages listed
    exact ⟨member, ((stages _ listed).succeeds_iff ready member).mp succeeds⟩
  · rintro ⟨member, succeeds⟩
    obtain ⟨now, listed⟩ := conversion.exists_stage fs member
    exact ⟨now, listed, ((stages _ listed).succeeds_iff ready member).mpr succeeds⟩

theorem read_of_writes (member : document ∈ documents)
    (writes : conversion.Writes fs document generated place) :
    (conversion.left fs documents).fileAt? place = some (conversion.held document generated) ∧
      (conversion.left fs documents).read (conversion.output document) =
        .ok (conversion.held document generated) := by
  have stages := (ready.undisturbed apart).1
  obtain ⟨now, listed⟩ := conversion.exists_stage fs member
  obtain ⟨earlier, later, parts⟩ := List.append_of_mem listed
  have outputs := (apart writes.toFile).outputs
  rw [← conversion.map_fst_stages fs documents, parts, List.map_append, List.map_cons,
    List.pairwise_append, List.pairwise_cons] at outputs
  have opened := ((stages _ listed).writes_iff ready member).mpr writes
  refine read_left_of_writes parts opened fun stage behind other again => ?_
  have within : stage ∈ conversion.stages fs documents := by
    rw [parts]
    exact List.mem_append_right _ (List.mem_cons_of_mem _ behind)
  have hit := (stages stage within).steady.target?_of_writes (mem_of_mem_stages within) again
  exact outputs.2.1.1 stage.1 (List.mem_map_of_mem behind) place
    (target?_eq_some.mpr writes.placed) hit

theorem fileAt?_of_unopened
    (others : ∀ document ∈ documents, ∀ generated,
      ¬conversion.Writes fs document generated place) :
    (conversion.left fs documents).fileAt? place = fs.fileAt? place := by
  refine fileAt?_left fun stage listed generated writes => ?_
  have member := mem_of_mem_stages listed
  have undisturbed := (ready.undisturbed apart).1 stage listed
  exact others stage.1 member generated ((undisturbed.writes_iff ready member).mp writes)

end Ready

/-- What a run comes to in which every document fares as it would alone. -/
structure Isolated (conversion : Conversion) (fs : FileSystem) (documents : List Path)
    (signs : Bool) (broken : Option Nat) (entries : List (Path × Generated))
    (failures : List (Path × Failure)) (outcome : Outcome) : Prop where
  /-- The documents that succeed and those that fail are all documents, each once and in order. -/
  inOrder : (entries.map Prod.fst).Sublist documents ∧ (failures.map Prod.fst).Sublist documents ∧
    (entries.map Prod.fst ++ failures.map Prod.fst).Perm documents
  succeeding : ∀ document generated, (document, generated) ∈ entries ↔
    document ∈ documents ∧ conversion.Succeeds fs document generated
  failing : ∀ document failure, (document, failure) ∈ failures → ∃ now,
    (document, now) ∈ conversion.stages fs documents ∧
      conversion.FailsWith now document failure
  /-- No document is read otherwise than it would have been before the run. -/
  inputs : ∀ stage ∈ conversion.stages fs documents, ∀ content,
    stage.2.read stage.1 = .ok content ↔ fs.read stage.1 = .ok content
  reports : outcome.reports = entries.map fun entry => conversion.report entry.1 entry.2
  /-- There is one message for each document that fails, and one line unless it has more. -/
  messages : outcome.messages =
    if documents = [] then ["No matching files found"]
    else failures.map fun entry => errorMessage entry.2.message
  lines : (∀ entry ∈ failures, '\n' ∉ entry.2.message.toList) →
    outcome.errorLines = failures.map fun entry => errorMessage entry.2.message
  exitCode : outcome.exitCode =
    if signs && broken.isSome then 101 else if failures = [] then 0 else 1
  stdout : ∃ pieces, outcome.stdout = pieces.flatten ++
      (if signs then Report.printed outcome.reports broken else []) ∧
    (conversion.toStdout = true → List.Forall₂ (conversion.Prints fs) documents pieces) ∧
    (conversion.toStdout = false → pieces = [])
  sources : conversion.toStdout = true →
    (∀ document ∈ documents, (conversion.faults document).printing = none) →
    outcome.stdout = (entries.flatMap fun entry => Text.encode entry.2.source) ++
      if signs then Report.printed outcome.reports broken else []
  written : conversion.toStdout = false → ∀ entry ∈ entries,
    outcome.files.read (conversion.output entry.1) = .ok entry.2.source.toUTF8
  /-- A file that was opened and not written to the end holds the beginning of a source. -/
  spoilt : ∀ document ∈ documents, ∀ generated place breach,
    conversion.Writes fs document generated place →
    (conversion.faults document).writing = some breach →
    outcome.files.read (conversion.output document) =
      .ok (generated.source.toUTF8.extract 0 breach.done)
  others : ∀ place,
    (∀ document ∈ documents, ∀ generated, ¬conversion.Writes fs document generated place) →
    outcome.files.fileAt? place = fs.fileAt? place
  unwritten : conversion.toStdout = true → outcome.files = fs

/-- A run over the documents that succeed, with nothing refused, comes to the same for them. -/
structure Repeats (conversion : Conversion) (fs : FileSystem) (documents : List Path)
    (entries : List (Path × Generated)) (outcome alone : Outcome) : Prop where
  exitCode : alone.exitCode = 0
  reports : alone.reports = outcome.reports
  sources : conversion.toStdout = true → ∃ rest,
    alone.stdout = (entries.flatMap fun entry => Text.encode entry.2.source) ++ rest
  files : ∀ place,
    (∀ document ∈ documents, ∀ generated, conversion.Writes fs document generated place →
      (conversion.faults document).writing = none) →
    alone.files.fileAt? place = outcome.files.fileAt? place

section Runs

variable {conversion : Conversion} {fs : FileSystem} {documents : List Path}
  (ready : conversion.Ready fs documents)
  (apart : conversion.toStdout = false → conversion.Apart fs documents)
include ready apart

theorem Ready.exists_pieces : ∃ pieces,
    conversion.printed (conversion.stages fs documents) = pieces.flatten ∧
    (conversion.toStdout = true → List.Forall₂ (conversion.Prints fs) documents pieces) ∧
    (conversion.toStdout = false → pieces = []) := by
  cases toStdout : conversion.toStdout with
  | false => exact ⟨[], printed_of_toFile toStdout _, by simp, fun _ => rfl⟩
  | true =>
    refine ⟨(conversion.stages fs documents).map fun stage =>
      (conversion.attempt stage.2 stage.1).printed, ?_, fun _ => ?_, by simp⟩
    · rw [printed, List.flatMap_def]
    have each : List.Forall₂ (conversion.Prints fs)
        ((conversion.stages fs documents).map Prod.fst)
        ((conversion.stages fs documents).map fun stage =>
          (conversion.attempt stage.2 stage.1).printed) := by
      rw [List.forall₂_map_left_iff, List.forall₂_map_right_iff, List.forall₂_same]
      intro stage listed
      have undisturbed := (ready.undisturbed apart).1 stage listed
      exact undisturbed.prints ready (mem_of_mem_stages listed) toStdout
    rwa [map_fst_stages] at each

theorem Ready.isolated (present : documents ≠ []) (signs : Bool) (broken : Option Nat) :
    conversion.Isolated fs documents signs broken
      (conversion.converted (conversion.stages fs documents))
      (conversion.failed (conversion.stages fs documents))
      ((conversion.all fs documents).outcome signs broken) := by
  have order := conversion.order_of_stages fs documents
  have undisturbed := (ready.undisturbed apart).1
  rw [all_eq]
  refine ⟨order, fun _ _ => ready.mem_converted_iff apart, ?_, ?_, rfl, ?_, ?_, ?_, ?_, ?_, ?_, ?_,
    ?_, ?_⟩
  · intro document failure listed
    obtain ⟨now, stage, failed⟩ := mem_failed.mp listed
    exact ⟨now, stage, failsWith_of_attempt failed⟩
  · intro stage listed content
    have member := mem_of_mem_stages listed
    exact (undisturbed stage listed).steady.read_eq_ok ready member
      ((undisturbed stage listed).contents stage.1 member)
  · rw [if_neg present, Progress.outcome, List.map_map]
    rfl
  · intro unbroken
    rw [Outcome.errorLines_of_unbroken rfl]
    · rw [Progress.outcome, List.map_map]
      rfl
    · intro failure member
      obtain ⟨entry, listed, rfl⟩ := List.mem_map.mp member
      exact unbroken entry listed
  · simp only [Progress.outcome, List.map_eq_nil_iff]
  · obtain ⟨pieces, flat, printing, writing⟩ := ready.exists_pieces apart
    exact ⟨pieces, by rw [← flat]; rfl, printing, writing⟩
  · intro toStdout unbroken
    rw [← printed_of_unbroken toStdout fun stage listed => unbroken _ (mem_of_mem_stages listed)]
    rfl
  · rintro toFile ⟨document, generated⟩ listed
    obtain ⟨member, succeeds⟩ := (ready.mem_converted_iff apart).mp listed
    obtain ⟨opens, whole, place, placed⟩ := succeeds.writes toFile
    have read := (ready.read_of_writes apart member ⟨toFile, succeeds.sourced, opens, placed⟩).2
    rw [held, whole] at read
    exact read
  · intro document member generated place breach writes broken
    have read := (ready.read_of_writes apart member writes).2
    rw [held, broken] at read
    exact read
  · intro place others
    exact ready.fileAt?_of_unopened apart others
  · intro toStdout
    exact left_of_toStdout toStdout fs documents

end Runs

theorem isolated_nil (conversion : Conversion) (fs : FileSystem) (broken : Option Nat) :
    conversion.Isolated fs [] false broken [] []
      { exitCode := 0, messages := ["No matching files found"], files := fs } := by
  refine ⟨⟨.slnil, .slnil, .nil⟩, by simp, by simp, by simp [stages], rfl, rfl, ?_, rfl, ?_,
    by simp, by simp, by simp, by simp, by simp⟩
  · intro _
    simp only [Outcome.errorLines, Outcome.lines, List.map_nil]
    decide +kernel
  · exact ⟨[], rfl, fun _ => .nil, fun _ => rfl⟩

def unhindered (conversion : Conversion) : Conversion := { conversion with faults := fun _ => {} }

section Alone

variable {conversion : Conversion} {fs : FileSystem} {documents : List Path}

theorem Succeeds.unhindered {document : Path} {generated : Generated}
    (succeeds : conversion.Succeeds fs document generated) :
    conversion.unhindered.Succeeds fs document generated :=
  ⟨⟨rfl, succeeds.sourced.2⟩, fun _ => rfl,
    fun toFile => ⟨⟨rfl, rfl⟩, rfl, (succeeds.writes toFile).2.2⟩⟩

theorem converted_eq_of_succeeds {stages : List (Path × FileSystem)}
    {entries : List (Path × Generated)} (same : stages.map Prod.fst = entries.map Prod.fst)
    (succeeds : ∀ stage ∈ stages, ∀ generated, (stage.1, generated) ∈ entries →
      conversion.Succeeds stage.2 stage.1 generated) :
    conversion.converted stages = entries ∧ conversion.failed stages = [] := by
  induction stages generalizing entries with
  | nil =>
    obtain rfl : entries = [] := by simpa using same.symm
    exact ⟨rfl, rfl⟩
  | cons stage rest ih =>
    cases entries with
    | nil => cases same
    | cons entry others =>
      obtain ⟨document, generated⟩ := entry
      obtain ⟨head, tail⟩ := List.cons.inj same
      obtain rfl : stage.1 = document := head
      have done := attempt_eq_ok.mpr
        (succeeds stage List.mem_cons_self generated List.mem_cons_self)
      obtain ⟨first, second⟩ := ih tail fun later listed found member =>
        succeeds later (List.mem_cons_of_mem _ listed) found (List.mem_cons_of_mem _ member)
      rw [converted_cons_of_ok done, failed_cons_of_ok done, first, second]
      exact ⟨rfl, rfl⟩

variable (ready : conversion.Ready fs documents)
  (apart : conversion.toStdout = false → conversion.Apart fs documents)
include ready apart

theorem Ready.unhindered :
    let part := (conversion.converted (conversion.stages fs documents)).map Prod.fst
    conversion.unhindered.Ready fs part ∧
      (conversion.toStdout = false → conversion.unhindered.Apart fs part) := by
  intro part
  have order := conversion.order_of_stages fs documents
  obtain ⟨located, above⟩ := ready.subset order.1.subset
  refine ⟨⟨located, above⟩, fun toFile => ?_⟩
  obtain ⟨outputs, inputs⟩ := (apart toFile).sublist order.1
  exact ⟨outputs, inputs⟩

theorem Ready.converted_unhindered :
    let entries := conversion.converted (conversion.stages fs documents)
    let stages := conversion.unhindered.stages fs (entries.map Prod.fst)
    conversion.unhindered.converted stages = entries ∧
      conversion.unhindered.failed stages = [] := by
  intro entries stages
  obtain ⟨ready', apart'⟩ := ready.unhindered apart
  refine converted_eq_of_succeeds (map_fst_stages _ fs _) fun stage listed generated member => ?_
  have undisturbed := (ready'.undisturbed apart').1 stage listed
  have succeeds := ((ready.mem_converted_iff apart).mp member).2
  exact (undisturbed.succeeds_iff ready' (mem_of_mem_stages listed)).mpr succeeds.unhindered

theorem Ready.fileAt?_unhindered {place : Location}
    (unspoilt : ∀ document ∈ documents, ∀ generated,
      conversion.Writes fs document generated place →
      (conversion.faults document).writing = none) :
    let entries := conversion.converted (conversion.stages fs documents)
    (conversion.unhindered.left fs (entries.map Prod.fst)).fileAt? place =
      (conversion.left fs documents).fileAt? place := by
  intro entries
  obtain ⟨ready', apart'⟩ := ready.unhindered apart
  have listed : ∀ {document generated}, (document, generated) ∈ entries ↔
      document ∈ documents ∧ conversion.Succeeds fs document generated :=
    ready.mem_converted_iff apart
  by_cases written : ∃ document generated, (document, generated) ∈ entries ∧
      conversion.Writes fs document generated place
  · obtain ⟨document, generated, member, writes⟩ := written
    have within : document ∈ documents := (listed.mp member).1
    have here : document ∈ entries.map Prod.fst := List.mem_map_of_mem member
    have again : conversion.unhindered.Writes fs document generated place :=
      ⟨writes.toFile, ⟨rfl, writes.sourced.2⟩, ⟨rfl, rfl⟩, writes.placed⟩
    rw [(ready.read_of_writes apart within writes).1,
      (ready'.read_of_writes apart' here again).1, held, held,
      unspoilt document within generated writes]
    rfl
  · rw [ready.fileAt?_of_unopened apart, ready'.fileAt?_of_unopened apart']
    · intro document within generated again
      obtain ⟨entry, member, rfl⟩ := List.mem_map.mp within
      have succeeds := (listed.mp member).2
      have sourced : conversion.Sourced fs entry.1 generated :=
        ⟨succeeds.sourced.1, again.sourced.2⟩
      obtain rfl := succeeds.sourced.unique sourced
      exact written ⟨entry.1, entry.2, member, again.toFile, sourced,
        (succeeds.writes again.toFile).1, again.placed⟩
    · intro document within generated writes
      have whole := unspoilt document within generated writes
      refine written ⟨document, generated, listed.mpr ⟨within, writes.sourced, ?_, ?_⟩, writes⟩
      · simp [writes.toFile]
      · exact fun _ => ⟨writes.opens, whole, place, writes.placed⟩

end Alone

end Conversion

namespace Options

variable {options : Options} {toolkit : Toolkit} {machine : Machine} {fs : FileSystem}
  {documents : List Path}
  (truthful : fs.Truthful (toolkit.walk fs))
  (found : options.documents toolkit machine fs = .ok documents)
  (apart : options.toStdout = false →
    (options.conversion toolkit machine fs).Apart fs documents)
include truthful found apart

theorem isolated :
    let conversion := options.conversion toolkit machine fs
    conversion.Isolated fs documents (options.signs toolkit machine fs && !documents.isEmpty)
      machine.report (conversion.converted (conversion.stages fs documents))
      (conversion.failed (conversion.stages fs documents)) (options.run toolkit machine fs) := by
  intro conversion
  cases documents with
  | nil =>
    rw [run_eq_of_none found, List.isEmpty_nil, Bool.not_true, Bool.and_false]
    exact conversion.isolated_nil fs machine.report
  | cons first rest =>
    rw [run_eq found (by simp), List.isEmpty_cons, Bool.not_false, Bool.and_true]
    exact (ready truthful found).isolated apart (by simp) _ _

theorem repeats :
    let conversion := options.conversion toolkit machine fs
    let entries := conversion.converted (conversion.stages fs documents)
    conversion.Repeats fs documents entries (options.run toolkit machine fs)
      (({ options with paths := entries.map Prod.fst } : Options).run toolkit
        { settings := machine.settings } fs) := by
  intro conversion entries
  have ready := ready truthful found
  have order := conversion.order_of_stages fs documents
  have alone := documents_of_found truthful found order.1 { settings := machine.settings }
  obtain ⟨converted, failed⟩ := ready.converted_unhindered apart
  refine ⟨exitCode_run_of_unfailed alone failed rfl, ?_, ?_, ?_⟩
  · rw [reports_run alone, reports_run found]
    exact congrArg (List.map _) converted
  · intro toStdout
    obtain ⟨rest, stdout⟩ := stdout_run alone
    have printed : conversion.unhindered.printed
        (conversion.unhindered.stages fs (entries.map Prod.fst)) =
          entries.flatMap fun entry => Text.encode entry.2.source := by
      have kept : conversion.unhindered.toStdout = true := toStdout
      rw [Conversion.printed_of_unbroken kept fun _ _ => rfl]
      exact congrArg (List.flatMap _) converted
    exact ⟨rest, stdout.trans (congrArg (· ++ rest) printed)⟩
  · intro place unspoilt
    rw [files_run alone, files_run found]
    exact ready.fileAt?_unhindered apart unspoilt

end Options

/--
One failing document does not affect the others, whatever the operating system refuses. In a run whose
outputs go to different files and over no document, each document fares as it would alone, and the
documents that succeed come to the same in a run over them alone.
-/
theorem run_isolates_documents {toolkit : Toolkit} {machine : Machine} {fs : FileSystem}
    {arguments : List (List UInt8)} {options : Options} {documents : List Path}
    (accepted : toolkit.arguments arguments = .ok options)
    (truthful : fs.Truthful (toolkit.walk fs))
    (found : options.documents toolkit machine fs = .ok documents)
    (apart : options.toStdout = false →
      (options.conversion toolkit machine fs).Apart fs documents) :
    ∃ entries failures,
      (options.conversion toolkit machine fs).Isolated fs documents
        (options.signs toolkit machine fs && !documents.isEmpty) machine.report entries failures
        (run toolkit machine fs arguments) ∧
      (options.conversion toolkit machine fs).Repeats fs documents entries
        (run toolkit machine fs arguments)
        (({ options with paths := entries.map Prod.fst } : Options).run toolkit
          { settings := machine.settings } fs) := by
  rw [run_of_accepted accepted]
  exact ⟨_, _, Options.isolated truthful found apart, Options.repeats truthful found apart⟩

/-- A parser that takes every text for a line of seven bytes. -/
def lineToolkit : Toolkit := .standard fun _ =>
  .node "document" ⟨0, 7⟩
    [.node "section" ⟨0, 7⟩ [.node "paragraph" ⟨0, 7⟩ [.node "inline" ⟨0, 6⟩ [] []] []] []] []

/-- Six documents, of which `b.md` is no text; `c.go` is a directory, and `d.go` is there. -/
def mixedFiles : FileSystem where
  entries :=
    [([[0x77]], .directory),
      ([[0x77], Text.encode "a.md"], .file "a file\n".toUTF8),
      ([[0x77], Text.encode "b.md"], .file ⟨#[0xFF]⟩),
      ([[0x77], Text.encode "c.md"], .file "a file\n".toUTF8),
      ([[0x77], Text.encode "c.go"], .directory),
      ([[0x77], Text.encode "d.md"], .file "a file\n".toUTF8),
      ([[0x77], Text.encode "d.go"], .file "package d\n".toUTF8),
      ([[0x77], Text.encode "e.md"], .file "a file\n".toUTF8),
      ([[0x77], Text.encode "f.md"], .file "a file\n".toUTF8)]
  working := [[0x77]]

/-- Three bytes of `d.go` can be written, and `e.md` cannot be read. -/
def hinderingMachine : Machine where
  documents document :=
    if document = Path.ofString "d.md" then
      { writing := some ⟨3, "No space left on device (os error 28)"⟩ }
    else if document = Path.ofString "e.md" then
      { reading := some "Permission denied (os error 13)" }
    else {}

def mixedOptions (toStdout : Bool) : Options where
  paths := ["a.md", "b.md", "c.md", "d.md", "e.md", "f.md"].map Path.ofString
  toStdout := toStdout

def mixedConversion (toStdout : Bool) : Conversion :=
  (mixedOptions toStdout).conversion lineToolkit hinderingMachine mixedFiles

def mixedProgress (toStdout : Bool) : Progress :=
  (mixedConversion toStdout).all mixedFiles (mixedOptions toStdout).paths

theorem documents_mixedOptions (toStdout : Bool) :
    (mixedOptions toStdout).documents lineToolkit hinderingMachine mixedFiles =
      .ok (mixedOptions toStdout).paths := by
  have located : ∀ name ∈ ["a.md", "b.md", "c.md", "d.md", "e.md", "f.md"],
      mixedFiles.locate (Path.ofString name) = .ok [[0x77], Text.encode name] ∧
        mixedFiles.isDirectoryAt [[0x77], Text.encode name] = false := by decide +kernel
  have increasing : (mixedOptions false).paths.Pairwise (·.key < ·.key) := by decide +kernel
  exact FileSystem.findDocuments_of_increasing increasing
    (List.forall_mem_map.mpr fun name member => ⟨_, located name member⟩)

theorem run_mixedOptions {arguments : List (List UInt8)} {toStdout : Bool}
    (accepted : lineToolkit.arguments arguments = .ok (mixedOptions toStdout)) :
    run lineToolkit hinderingMachine mixedFiles arguments =
      (mixedProgress toStdout).outcome
        ((mixedOptions toStdout).signs lineToolkit hinderingMachine mixedFiles) none := by
  rw [run_of_accepted accepted,
    Options.run_eq (documents_mixedOptions toStdout) (by simp [mixedOptions])]
  rfl

/-- Of six documents four fail, or two if nothing is written. -/
theorem run_isolates_documents_mixed :
    let arguments := (mixedOptions false).paths.map Path.toBytes
    let outcome := run lineToolkit hinderingMachine mixedFiles arguments
    let printing := run lineToolkit hinderingMachine mixedFiles
      (Text.encode "--stdout" :: arguments)
    (lineToolkit.arguments arguments = .ok (mixedOptions false) ∧
      (mixedConversion false).Apart mixedFiles (mixedOptions false).paths ∧
      outcome.reports = [⟨"a.md", some "a.go", []⟩, ⟨"f.md", some "f.go", []⟩] ∧
      outcome.errorLines =
        ["Error: document \"b.md\" is not valid UTF-8",
          "Error: I/O error on c.go: Is a directory (os error 21)",
          "Error: I/O error on d.go: No space left on device (os error 28)",
          "Error: I/O error on e.md: Permission denied (os error 13)"] ∧
      outcome.exitCode = 1 ∧ outcome.stdout = [] ∧
      outcome.files.read (Path.ofString "a.go") = .ok (footer "a.md").toUTF8 ∧
      outcome.files.read (Path.ofString "f.go") = .ok (footer "f.md").toUTF8 ∧
      outcome.files.read (Path.ofString "d.go") = .ok "\n//".toUTF8 ∧
      outcome.files.fileAt? [[0x77], Text.encode "e.md"] = some "a file\n".toUTF8) ∧
    lineToolkit.arguments (Text.encode "--stdout" :: arguments) = .ok (mixedOptions true) ∧
      printing.reports = [⟨"a.md", none, []⟩, ⟨"c.md", none, []⟩, ⟨"d.md", none, []⟩,
        ⟨"f.md", none, []⟩] ∧
      printing.errorLines =
        ["Error: document \"b.md\" is not valid UTF-8",
          "Error: I/O error on e.md: Permission denied (os error 13)"] ∧
      printing.exitCode = 1 ∧
      printing.stdout =
        ["a.md", "c.md", "d.md", "f.md"].flatMap (fun name => Text.encode (footer name)) ∧
      printing.files = mixedFiles := by
  intro arguments outcome printing
  have truthful : mixedFiles.Truthful (lineToolkit.walk mixedFiles) :=
    FileSystem.truthful_visits mixedFiles
  constructor
  · have accepted : lineToolkit.arguments arguments = .ok (mixedOptions false) := by
      decide +kernel
    have apart : (mixedConversion false).Apart mixedFiles (mixedOptions false).paths :=
      ⟨by decide +kernel, by decide +kernel⟩
    have ran : outcome = _ := run_mixedOptions accepted
    obtain ⟨entries, failures, isolated, _⟩ :=
      run_isolates_documents accepted truthful (documents_mixedOptions false) fun _ => apart
    have holds : ∀ name ∈ ["a.md", "f.md"],
        outcome.files.read ((mixedConversion false).output (Path.ofString name)) =
          .ok (footer name).toUTF8 := by
      have done : ∀ name ∈ ["a.md", "f.md"], Path.ofString name ∈ (mixedOptions false).paths ∧
          ((mixedConversion false).attempt mixedFiles (Path.ofString name)).result =
            .ok ⟨footer name, []⟩ := by decide +kernel
      intro name member
      obtain ⟨listed, result⟩ := done name member
      exact isolated.written rfl (_, _)
        ((isolated.succeeding _ _).mpr ⟨listed, Conversion.attempt_eq_ok.mp result⟩)
    have goes : ∀ names ∈ [("a.md", "a.go"), ("f.md", "f.go"), ("d.md", "d.go")],
        (mixedConversion false).output (Path.ofString names.1) = Path.ofString names.2 := by
      decide +kernel
    have cut : outcome.files.read (Path.ofString "d.go") = .ok "\n//".toUTF8 := by
      have made : (mixedConversion false).source mixedFiles (Path.ofString "d.md") =
          .ok ⟨footer "d.md", []⟩ := by decide +kernel
      have opened : (mixedConversion false).Writes mixedFiles (Path.ofString "d.md")
          ⟨footer "d.md", []⟩ [[0x77], Text.encode "d.go"] :=
        ⟨rfl, Conversion.source_eq_ok.mp made, ⟨by decide +kernel, by decide +kernel⟩,
          by decide +kernel⟩
      have broken : (hinderingMachine.documents (Path.ofString "d.md")).writing =
          some ⟨3, "No space left on device (os error 28)"⟩ := by decide +kernel
      rw [← goes ("d.md", "d.go") (by simp)]
      refine (isolated.spoilt _ (by decide +kernel) _ _ _ opened broken).trans ?_
      decide +kernel
    have unread : outcome.files.fileAt? [[0x77], Text.encode "e.md"] =
        some "a file\n".toUTF8 := by
      have elsewhere : ∀ document ∈ (mixedOptions false).paths,
          (mixedConversion false).target? mixedFiles document ≠
            some [[0x77], Text.encode "e.md"] := by decide +kernel
      rw [isolated.others]
      · decide +kernel
      · intro document member generated writes
        exact elsewhere document member (Conversion.target?_eq_some.mpr writes.placed)
    have first := holds "a.md" (by simp)
    have last := holds "f.md" (by simp)
    rw [goes ("a.md", "a.go") (by simp)] at first
    rw [goes ("f.md", "f.go") (by simp)] at last
    refine ⟨accepted, apart, ?_, ?_, ?_, ?_, first, last, cut, unread⟩ <;>
      (rw [ran]; decide +kernel)
  · have accepted : lineToolkit.arguments (Text.encode "--stdout" :: arguments) =
        .ok (mixedOptions true) := by decide +kernel
    have ran : printing = _ := run_mixedOptions accepted
    obtain ⟨entries, failures, isolated, _⟩ :=
      run_isolates_documents accepted truthful (documents_mixedOptions true)
        (by simp [mixedOptions])
    have sources : (mixedProgress true).printed =
        ["a.md", "c.md", "d.md", "f.md"].flatMap (fun name => Text.encode (footer name)) := by
      have converted : (mixedConversion true).converted
          ((mixedConversion true).stages mixedFiles (mixedOptions true).paths) =
            ["a.md", "c.md", "d.md", "f.md"].map fun name =>
              (Path.ofString name, ⟨footer name, []⟩) := by decide +kernel
      have unbroken : ∀ document ∈ (mixedOptions true).paths,
          ((mixedConversion true).faults document).printing = none := by decide +kernel
      rw [mixedProgress, Conversion.all_eq]
      refine (Conversion.printed_of_unbroken rfl fun stage listed =>
        unbroken _ (Conversion.mem_of_mem_stages listed)).trans ?_
      rw [converted, List.flatMap_map]
    have unsigned : (mixedOptions true).signs lineToolkit hinderingMachine mixedFiles = false := by
      decide +kernel
    have stdout : printing.stdout = (mixedProgress true).printed := by
      rw [ran, unsigned, Progress.outcome]
      exact List.append_nil _
    refine ⟨accepted, ?_, ?_, ?_, stdout.trans sources, isolated.unwritten rfl⟩ <;>
      (rw [ran]; decide +kernel)

/-- One document, the name of whose output is that of a directory and takes two lines. -/
def twoLineFiles : FileSystem where
  entries :=
    [([[0x77]], .directory),
      ([[0x77], Text.encode "a\nError: b.md"], .file "a file\n".toUTF8),
      ([[0x77], Text.encode "a\nError: b.go"], .directory)]
  working := [[0x77]]

def twoLineOptions : Options := { paths := [Path.ofString "a\nError: b.md"] }

def cutOptions : Options := { paths := [Path.ofString "d.md"] }

/-- One failing document may give two lines, and what it does not report it may have emptied. -/
theorem run_spoils_unreported :
    let twoLines := run lineToolkit {} twoLineFiles [Text.encode "a\nError: b.md"]
    let cut := run lineToolkit hinderingMachine mixedFiles [Text.encode "d.md"]
    (lineToolkit.arguments [Text.encode "a\nError: b.md"] = .ok twoLineOptions ∧
      twoLineOptions.documents lineToolkit {} twoLineFiles = .ok twoLineOptions.paths ∧
      (twoLineOptions.conversion lineToolkit {} twoLineFiles).Apart twoLineFiles
        twoLineOptions.paths ∧
      twoLines.errorLines =
        ["Error: I/O error on a", "Error: b.go: Is a directory (os error 21)"]) ∧
    lineToolkit.arguments [Text.encode "d.md"] = .ok cutOptions ∧
      cutOptions.documents lineToolkit hinderingMachine mixedFiles = .ok cutOptions.paths ∧
      (cutOptions.conversion lineToolkit hinderingMachine mixedFiles).Apart mixedFiles
        cutOptions.paths ∧
      cut.reports = [] ∧ mixedFiles.read (Path.ofString "d.go") = .ok "package d\n".toUTF8 ∧
      cut.files.read (Path.ofString "d.go") = .ok "\n//".toUTF8 := by
  intro twoLines cut
  constructor
  · have accepted : lineToolkit.arguments [Text.encode "a\nError: b.md"] = .ok twoLineOptions := by
      decide +kernel
    have found : twoLineOptions.documents lineToolkit {} twoLineFiles =
        .ok twoLineOptions.paths :=
      FileSystem.findDocuments_of_increasing (by decide +kernel) (List.forall_mem_singleton.mpr
        ⟨[[0x77], Text.encode "a\nError: b.md"], by decide +kernel⟩)
    refine ⟨accepted, found, ⟨by decide +kernel, by decide +kernel⟩, ?_⟩
    rw [show twoLines = twoLineOptions.run lineToolkit {} twoLineFiles from
      run_of_accepted accepted _ _, Options.run_eq found (by simp [twoLineOptions])]
    decide +kernel
  · have accepted : lineToolkit.arguments [Text.encode "d.md"] = .ok cutOptions := by
      decide +kernel
    have found : cutOptions.documents lineToolkit hinderingMachine mixedFiles =
        .ok cutOptions.paths :=
      FileSystem.findDocuments_of_increasing (by decide +kernel) (List.forall_mem_singleton.mpr
        ⟨[[0x77], Text.encode "d.md"], by decide +kernel⟩)
    have ran : cut = cutOptions.run lineToolkit hinderingMachine mixedFiles :=
      run_of_accepted accepted _ _
    refine ⟨accepted, found, ⟨by decide +kernel, by decide +kernel⟩, ?_, by decide +kernel, ?_⟩
    · rw [ran, Options.reports_run found]
      decide +kernel
    · rw [ran, Options.files_run found]
      decide +kernel

end Tangle
