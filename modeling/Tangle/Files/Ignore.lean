import Tangle.Files.Basic
import Tangle.Text.Blank

/-!
Ignore files: lines of patterns that leave entries out of a search. The last pattern of a file
that matches decides, and the nearest file with a match. Files named `.ignore` come before those
named `.gitignore`, which only count inside a repository, up to the directory that holds it.
-/

namespace Tangle

structure IgnorePattern where
  /-- Takes entries back in instead of leaving them out. -/
  negated : Bool
  directoriesOnly : Bool
  /-- Starts at the directory of the file; otherwise it fits at any depth. -/
  anchored : Bool
  segments : List (List UInt8)
  deriving DecidableEq, Repr

namespace IgnorePattern

def star : UInt8 := 0x2A

def anyEnd (wanted : FileName → Bool) : FileName → Bool
  | [] => wanted []
  | b :: rest => wanted (b :: rest) || anyEnd wanted rest

def fits : List UInt8 → FileName → Bool
  | [], name => name == []
  | p :: pattern, name =>
    if p = star then anyEnd (fits pattern) name
    else match name with
      | [] => false
      | b :: rest => p == b && fits pattern rest

def ofLine? (line : String) : Option IgnorePattern :=
  match Text.trimEnd line.toList with
  | [] => none
  | '#' :: _ => none
  | text =>
    let (negated, text) := match text with
      | '!' :: rest => (true, rest)
      | _ => (false, text)
    let (rooted, text) := match text with
      | '/' :: rest => (true, rest)
      | _ => (false, text)
    let (directoriesOnly, text) := match text.reverse with
      | '/' :: rest => (true, rest.reverse)
      | _ => (false, text)
    let segments := Path.splitSlashes (Text.encode (String.ofList text))
    some ⟨negated, directoriesOnly, rooted || segments.length != 1, segments⟩

def fitsEntry (pattern : IgnorePattern) (isDirectory : Bool) (names : List FileName) : Bool :=
  let names := if pattern.anchored then names else names.getLast?.toList
  (isDirectory || !pattern.directoriesOnly) && names.length == pattern.segments.length &&
    (pattern.segments.zip names).all fun (segment, name) => fits segment name

/-- What the patterns of a file say of an entry: left out, taken back in, or nothing. -/
def verdict? (patterns : List IgnorePattern) (isDirectory : Bool) (names : List FileName) :
    Option Bool :=
  (patterns.reverse.find? (·.fitsEntry isDirectory names)).map (!·.negated)

def ofContent (content : ByteArray) : List IgnorePattern :=
  let lines := (Text.pieces 0x0A content.toList).map Text.decode?
  ((lines.takeWhile Option.isSome).filterMap id).filterMap ofLine?

end IgnorePattern

namespace FileSystem

def patternsAt (fs : FileSystem) (name : String) (directory : Location) : List IgnorePattern :=
  match fs.walkFrom linkBound directory [Text.encode name] >>= fs.contentAt with
  | .ok content => IgnorePattern.ofContent content
  | .error _ => []

def holdsRepository (fs : FileSystem) (directory : Location) : Bool :=
  match fs.walkFrom linkBound directory [Text.encode ".git"] with
  | .ok _ => true
  | .error _ => false

def directoriesAbove (place : Location) : List Location :=
  (List.range place.length).reverse.map place.take

def repositoryDirectories (fs : FileSystem) (directories : List Location) : List Location :=
  match directories.findIdx? fs.holdsRepository with
  | some i => directories.take (i + 1)
  | none => []

def verdictOf? (fs : FileSystem) (place : Location) (name : String)
    (directories : List Location) : Option Bool :=
  directories.findSome? fun directory =>
    IgnorePattern.verdict? (fs.patternsAt name directory) (fs.isDirectoryAt place)
      (place.drop directory.length)

/-- Whether a search leaves out the entry at a place: as the ignore files say, or if it is hidden. -/
def isLeftOut (fs : FileSystem) (place : Location) : Bool :=
  let above := directoriesAbove place
  let hidden := (place.getLast?.bind (·.head?)) == some 0x2E
  ((fs.verdictOf? place ".ignore" above).or
    (fs.verdictOf? place ".gitignore" (fs.repositoryDirectories above))).getD hidden

end FileSystem

end Tangle
