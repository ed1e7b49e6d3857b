import Tangle.Emission
import Tangle.Markdown.Adapter
import Tangle.Text.Quoted

/-!
From the bytes of a Markdown document to the generated source, with a footer that names the
document. The parser is a parameter: it gives some tree for every text.
-/

namespace Tangle

def toolName : String := "godown"

def toolReference : String := "https://github.com/hirokistring/godown"

/-- The two comment lines that end a generated source. -/
def footer (name : String) : String :=
  "\n// This file is generated from " ++ Text.quoted name ++ " by " ++ toolName ++ ".\n// " ++
    toolReference ++ "\n"

inductive GenerationError where
  | brokenLink (broken : BrokenLink)
  | notUtf8 (name : String)
  deriving DecidableEq, Repr

def GenerationError.message : GenerationError → String
  | brokenLink broken => broken.message
  | notUtf8 name => "document " ++ Text.quoted name ++ " is not valid UTF-8"

abbrev Parser := String → Markdown.ParseTree

def Document.generate (doc : Document) (name : String) : Except BrokenLink Generated := do
  let generated ← doc.emit
  return { generated with source := generated.source ++ footer name }

def generate (parser : Parser) (name : String) (content : ByteArray) :
    Except GenerationError Generated :=
  match String.fromUTF8? content with
  | none => .error (.notUtf8 name)
  | some text =>
    ((Markdown.document text (parser text)).generate name).mapError .brokenLink

end Tangle
