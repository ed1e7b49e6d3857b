import Tangle.Path.Basic

/-!
The options of the command line, and a reader of arguments, which are bytes. Arguments are read from
left to right, so the first one that is refused, or asks for help, decides.
-/

namespace Tangle

structure Options where
  paths : List Path := []
  extensions : List String := []
  outputDirectory : Option Path := none
  toStdout : Bool := false
  signatures : Bool := false
  verbose : Bool := false
  quiet : Bool := false
  deriving DecidableEq, Repr

inductive Halt where
  | refused
  | help (text : String)
  deriving DecidableEq, Repr

inductive Switch where
  | stdout
  | signatures
  | verbose
  | quiet
  | help
  deriving DecidableEq, Repr

inductive Setting where
  | extension
  | outputDirectory
  deriving DecidableEq, Repr

inductive OptionName where
  | switch (switch : Switch)
  | setting (setting : Setting)
  deriving DecidableEq, Repr

namespace OptionName

def long? (name : String) : Option OptionName :=
  match name with
  | "stdout" => some (.switch .stdout)
  | "signatures" => some (.switch .signatures)
  | "verbose" => some (.switch .verbose)
  | "quiet" => some (.switch .quiet)
  | "help" => some (.switch .help)
  | "ext" => some (.setting .extension)
  | "output-dir" => some (.setting .outputDirectory)
  | _ => none

def short? : Char → Option OptionName
  | 'v' => some (.switch .verbose)
  | 'q' => some (.switch .quiet)
  | 'h' => some (.switch .help)
  | 'e' => some (.setting .extension)
  | 'o' => some (.setting .outputDirectory)
  | _ => none

end OptionName

namespace Options

def dash : UInt8 := 0x2D

def equals : UInt8 := 0x3D

def help : String := "\n".intercalate [
  "Generate Go source files from structured Markdown",
  "",
  "Usage: godown [OPTIONS] [PATH]...",
  "",
  "Arguments:",
  "  [PATH]...  Markdown files or directories to convert [default: .]",
  "",
  "Options:",
  "  -e, --ext <EXT>         File suffixes to match when scanning directories",
  "  -o, --output-dir <DIR>  Directory to write generated files to",
  "      --stdout            Print generated source instead of writing files",
  "      --signatures        Print recognised function signatures as JSON",
  "  -v, --verbose           Log progress and recognition decisions",
  "  -q, --quiet             Only log errors",
  "  -h, --help              Print help",
  ""]

def turnOn (options : Options) : Switch → Except Halt Options
  | .stdout => if options.toStdout then .error .refused else .ok { options with toStdout := true }
  | .signatures =>
    if options.signatures then .error .refused else .ok { options with signatures := true }
  | .verbose => if options.verbose then .error .refused else .ok { options with verbose := true }
  | .quiet => if options.quiet then .error .refused else .ok { options with quiet := true }
  | .help => .error (.help help)

/-- Extensions are text and add up; a directory is given once and is not empty. -/
def set (options : Options) (value : List UInt8) : Setting → Except Halt Options
  | .extension =>
    match Text.decode? value with
    | some text => .ok { options with extensions := options.extensions ++ [text] }
    | none => .error .refused
  | .outputDirectory =>
    if options.outputDirectory.isSome ∨ value = [] then .error .refused
    else .ok { options with outputDirectory := some (.ofBytes value) }

def addPath (options : Options) (path : List UInt8) : Except Halt Options :=
  if path = [] then .error .refused
  else .ok { options with paths := options.paths ++ [.ofBytes path] }

/-- Letters behind one dash. The first with a value takes what is left, or else awaits one. -/
def readLetters (options : Options) : List UInt8 → Except Halt (Options × Option Setting)
  | [] => .ok (options, none)
  | letter :: rest =>
    match OptionName.short? (Char.ofNat letter.toNat) with
    | none => .error .refused
    | some (.switch switch) => do (← options.turnOn switch).readLetters rest
    | some (.setting setting) =>
      match rest with
      | [] => .ok (options, some setting)
      | first :: value => do
        let value := if first = equals then value else first :: value
        return (← options.set value setting, none)

def splitEquals (text : List UInt8) : List UInt8 × Option (List UInt8) :=
  (text.takeWhile (· != equals), (text.dropWhile (· != equals)).tail?)

def readLong (options : Options) (text : List UInt8) : Except Halt (Options × Option Setting) :=
  let (name, value) := splitEquals text
  match (Text.decode? name).bind OptionName.long?, value with
  | some (.switch switch), none => do return (← options.turnOn switch, none)
  | some (.setting setting), none => .ok (options, some setting)
  | some (.setting setting), some value => do return (← options.set value setting, none)
  | _, _ => .error .refused

/-- Reads arguments; one may have to be the value that a setting before it awaits. -/
def read (options : Options) :
    (awaiting : Option Setting) → List (List UInt8) → Except Halt Options
  | none, [] => .ok options
  | some _, [] => .error .refused
  | some setting, argument :: rest =>
    if [dash].isPrefixOf argument ∧ argument ≠ [dash] then .error .refused
    else do (← options.set argument setting).read none rest
  | none, argument :: rest =>
    if argument = [dash, dash] then rest.foldlM addPath options
    else match [dash, dash].isPrefixOf? argument, [dash].isPrefixOf? argument with
      | some text, _ => do
        let (options, awaiting) ← options.readLong text
        options.read awaiting rest
      | none, some (letter :: letters) => do
        let (options, awaiting) ← options.readLetters (letter :: letters)
        options.read awaiting rest
      | none, _ => do (← options.addPath argument).read none rest

def ofArguments (arguments : List (List UInt8)) : Except Halt Options := do
  let options ← ({} : Options).read none arguments
  if options.verbose && options.quiet then .error .refused
  else if options.paths = [] then return { options with paths := [.ofString "."] }
  else return options

end Options

end Tangle
