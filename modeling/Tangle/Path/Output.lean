import Tangle.Path.Basic

/-!
Which files are documents, by the ends of their names, and where the source generated from a
document goes.
-/

namespace Tangle

def formatName : String := "markdown"

def formatExtension : String := "md"

/-- Whether a name is something, a dot, and the extension without the dots before it. -/
def hasExtension (name : String) (extension : String) : Bool :=
  let ending := '.' :: extension.toList.dropWhile (· == '.')
  ending.length < name.toList.length && ending.isSuffixOf name.toList

def Path.matchesExtension (path : Path) (extensions : List String) : Bool :=
  match path.fileName?.bind Text.decode? with
  | some name => extensions.any (hasExtension name)
  | none => false

def outputName (name : List Char) : List Char :=
  let stem := (('.' :: formatExtension.toList).isSuffixOf? name).getD name
  if ".go".toList.isSuffixOf stem then stem else stem ++ ".go".toList

/-- Where the source goes: into a directory, or else beside the document. -/
def Path.output (input : Path) (directory : Option Path) : Path :=
  let name := Text.encode (String.ofList
    (outputName (Text.lossy (input.fileName?.getD [])).toList))
  match directory with
  | some directory => directory.push name
  | none => input.withFileName name

end Tangle
