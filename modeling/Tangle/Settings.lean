import Tangle.Files.Basic
import Tangle.Path.Output
import Tangle.Toml.Parser

/-!
What a user may set, in a file of the working directory: which files are documents, where sources
go and whether signatures are reported.
-/

namespace Tangle

structure Settings where
  fileExtensions : List String := ["go." ++ formatExtension]
  /-- Empty if each source goes beside its document. -/
  outputDirectory : String := ""
  emitSignatures : Bool := false
  deriving DecidableEq, Repr

inductive SettingsError where
  | file (error : FileError)
  | malformed (path : Path)
  deriving DecidableEq, Repr

namespace Settings

def fileName : String := "godown.toml"

def outputPath? (settings : Settings) : Option Path :=
  if settings.outputDirectory = "" then none else some (Path.ofString settings.outputDirectory)

def text? : Toml.Value → Option String
  | .string text => some text
  | _ => none

def texts? : Toml.Value → Option (List String)
  | .array items => items.mapM text?
  | _ => none

def flag? : Toml.Value → Option Bool
  | .boolean flag => some flag
  | _ => none

def field? {α : Type} (table : Toml.Table) (name : String) (read? : Toml.Value → Option α)
    (otherwise : α) : Option α :=
  match table.lookup name with
  | some value => read? value
  | none => some otherwise

def ofTable? (table : Toml.Table) : Option Settings := do
  let defaults : Settings := {}
  return {
    fileExtensions := ← field? table "file_extensions" texts? defaults.fileExtensions
    outputDirectory := ← field? table "output_dir" text? defaults.outputDirectory
    emitSignatures := ← field? table "emit_signatures" flag? defaults.emitSignatures }

def ofToml? (text : String) : Option Settings := Toml.parse? text >>= ofTable?

end Settings

namespace FileSystem

def readText (fs : FileSystem) (refusal : Option String) (path : Path) :
    Except FileError String := do
  match String.fromUTF8? (← fs.readUnless refusal path) with
  | some text => .ok text
  | none => .error ⟨path, .notUtf8⟩

variable (read? : String → Option Settings)

def settingsAt (fs : FileSystem) (refusal : Option String) (path : Path) :
    Except SettingsError (Option Settings) :=
  match fs.readText refusal path with
  | .ok text =>
    match read? text with
    | some settings => .ok (some settings)
    | none => .error (.malformed path)
  | .error error => if error.cause = .notFound then .ok none else .error (.file error)

/-- The settings of the working directory. Without a file that can be used there are none. -/
def settings (fs : FileSystem) (refusal : Option String) : Settings :=
  match fs.settingsAt read? refusal (Path.ofString Settings.fileName) with
  | .ok (some settings) => settings
  | _ => {}

end FileSystem

end Tangle
