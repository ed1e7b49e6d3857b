import Tangle.Text.Quoted

/-!
The report of a run as JSON text, indented by two spaces.
-/

namespace Tangle

/-- What became of one document. There is no output path if the source was printed. -/
structure Report where
  input : String
  output : Option String
  signatures : List String
  deriving DecidableEq, Repr

namespace Report

def jsonChar (c : Char) : List Char :=
  match c with
  | '"' => ['\\', '"']
  | '\\' => ['\\', '\\']
  | '\x08' => ['\\', 'b']
  | '\x0c' => ['\\', 'f']
  | '\n' => ['\\', 'n']
  | '\r' => ['\\', 'r']
  | '\t' => ['\\', 't']
  | c =>
    if c.toNat < 0x10 then "\\u000".toList ++ Text.hexDigits c.toNat
    else if c.toNat < 0x20 then "\\u00".toList ++ Text.hexDigits c.toNat
    else [c]

def jsonText (text : String) : String :=
  "\"" ++ String.ofList (text.toList.flatMap jsonChar) ++ "\""

def spaces (count : Nat) : String := String.ofList (List.replicate count ' ')

def bracketed (indent : Nat) (first last : Char) (items : List String) : String :=
  match items with
  | [] => String.ofList [first, last]
  | items =>
    String.ofList [first, '\n'] ++ ",\n".intercalate (items.map (spaces (indent + 2) ++ ·)) ++
      "\n" ++ spaces indent ++ String.singleton last

def jsonField (name value : String) : String := jsonText name ++ ": " ++ value

def json (report : Report) : String :=
  bracketed 2 '{' '}' (
    jsonField "input" (jsonText report.input) ::
    report.output.toList.map (fun output => jsonField "output" (jsonText output)) ++
    [jsonField "signatures" (bracketed 4 '[' ']' (report.signatures.map jsonText))])

def jsonList (reports : List Report) : String := bracketed 0 '[' ']' (reports.map json)

end Report

end Tangle
