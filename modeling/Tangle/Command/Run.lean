import Tangle.Command.Options
import Tangle.Command.Report
import Tangle.Files.Find
import Tangle.Files.Write
import Tangle.Generation
import Tangle.Settings

/-!
A run of the program as a function of the file system, the arguments, and what the operating system
refuses. A document that fails is reported and the others are converted all the same.
-/

namespace Tangle

/-- The parts of the program that come from elsewhere. -/
structure Toolkit where
  parser : Parser
  arguments : List (List UInt8) → Except Halt Options
  settings : String → Option Settings
  walk : FileSystem → Walk

def Toolkit.standard (parser : Parser) : Toolkit where
  parser := parser
  arguments := Options.ofArguments
  settings := Settings.ofToml?
  walk := FileSystem.visits

/-- What the operating system refuses in a run. Standard error takes whatever is written to it. -/
structure Machine where
  settings : Option String := none
  documents : Path → Faults := fun _ => {}
  /-- Counts the bytes of the report that are printed, if not all are. -/
  report : Option Nat := none

inductive Failure where
  | file (error : FileError)
  | generation (error : GenerationError)
  deriving DecidableEq, Repr

def Failure.message : Failure → String
  | file error => error.message
  | generation error => error.message

structure Conversion where
  parser : Parser
  outputDirectory : Option Path
  toStdout : Bool
  faults : Path → Faults

structure Attempt where
  files : FileSystem
  printed : List UInt8
  result : Except Failure Generated

/-- What a run has done so far. -/
structure Progress where
  files : FileSystem
  printed : List UInt8 := []
  reports : List Report := []
  failures : List Failure := []

structure Outcome where
  exitCode : Nat
  stdout : List UInt8 := []
  reports : List Report := []
  messages : List String := []
  files : FileSystem

def Outcome.lines (outcome : Outcome) : List String :=
  outcome.messages.flatMap fun message =>
    (Text.pieces '\n' message.toList).map String.ofList

def errorMark : String := "Error: "

def Outcome.errorLines (outcome : Outcome) : List String :=
  outcome.lines.filter fun line => errorMark.toList.isPrefixOf line.toList

def Path.documentName (path : Path) : String :=
  match path.fileName? with
  | some name => Text.lossy name
  | none => path.display

def printText (breach : Option Breach) (text : String) : List UInt8 × Except FileError Unit :=
  match breach with
  | none => (Text.encode text, .ok ())
  | some breach =>
    ((Text.encode text).take breach.done,
      .error ⟨Path.ofString "<stdout>", .other breach.reason⟩)

namespace Conversion

def output (conversion : Conversion) (document : Path) : Path :=
  document.output conversion.outputDirectory

def report (conversion : Conversion) (document : Path) (generated : Generated) : Report where
  input := document.display
  output := if conversion.toStdout then none else some (conversion.output document).display
  signatures := generated.signatures

def source (conversion : Conversion) (fs : FileSystem) (document : Path) :
    Except Failure Generated := do
  let content ← (fs.readUnless (conversion.faults document).reading document).mapError .file
  (generate conversion.parser document.documentName content).mapError .generation

/-- Converts a document: its source is printed or written. -/
def attempt (conversion : Conversion) (fs : FileSystem) (document : Path) : Attempt :=
  let faults := conversion.faults document
  match conversion.source fs document with
  | .error failure => ⟨fs, [], .error failure⟩
  | .ok generated =>
    if conversion.toStdout then
      let (printed, result) := printText faults.printing generated.source
      ⟨fs, printed, (result.mapError .file).map fun _ => generated⟩
    else
      let (files, result) :=
        fs.writeOutput faults (conversion.output document) generated.source.toUTF8
      ⟨files, [], (result.mapError .file).map fun _ => generated⟩

def step (conversion : Conversion) (progress : Progress) (document : Path) : Progress :=
  let attempt := conversion.attempt progress.files document
  let progress := { progress with
    files := attempt.files
    printed := progress.printed ++ attempt.printed }
  match attempt.result with
  | .ok generated =>
    { progress with reports := progress.reports ++ [conversion.report document generated] }
  | .error failure => { progress with failures := progress.failures ++ [failure] }

def all (conversion : Conversion) (fs : FileSystem) (documents : List Path) : Progress :=
  documents.foldl conversion.step { files := fs }

end Conversion

/-- The settings of a run: what options say goes before what the settings file says. -/
def Options.settings (options : Options) (settings : Settings) : Settings where
  fileExtensions :=
    if options.extensions = [] then settings.fileExtensions else options.extensions
  outputDirectory := (options.outputDirectory.map Path.display).getD settings.outputDirectory
  emitSignatures := options.signatures || settings.emitSignatures

def errorMessage (message : String) : String := errorMark ++ message

def Report.printed (reports : List Report) (broken : Option Nat) : List UInt8 :=
  let text := Text.encode (jsonList reports ++ "\n")
  text.take (broken.getD text.length)

/-- A report that cannot be printed ends the program with an exit code of its own. -/
def Progress.outcome (progress : Progress) (emitSignatures : Bool) (broken : Option Nat) :
    Outcome where
  exitCode :=
    if emitSignatures && broken.isSome then 101 else if progress.failures = [] then 0 else 1
  stdout := progress.printed ++
    if emitSignatures then Report.printed progress.reports broken else []
  reports := progress.reports
  messages := progress.failures.map fun failure => errorMessage failure.message
  files := progress.files

def Options.run (options : Options) (toolkit : Toolkit) (machine : Machine) (fs : FileSystem) :
    Outcome :=
  let settings := options.settings (fs.settings toolkit.settings machine.settings)
  match fs.findDocuments (toolkit.walk fs) settings.fileExtensions options.paths with
  | .error error => { exitCode := 1, messages := [errorMessage error.message], files := fs }
  | .ok [] => { exitCode := 0, messages := ["No matching files found"], files := fs }
  | .ok documents =>
    let conversion : Conversion :=
      ⟨toolkit.parser, settings.outputPath?, options.toStdout, machine.documents⟩
    (conversion.all fs documents).outcome settings.emitSignatures machine.report

/-- A run of the program. -/
def run (toolkit : Toolkit) (machine : Machine) (fs : FileSystem)
    (arguments : List (List UInt8)) : Outcome :=
  match toolkit.arguments arguments with
  | .ok options => options.run toolkit machine fs
  | .error (.help text) => { exitCode := 0, stdout := Text.encode text, files := fs }
  | .error .refused => { exitCode := 2, files := fs }

end Tangle
