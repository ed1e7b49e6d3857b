import Tangle.Files.Ignore
import Tangle.Path.Output

/-!
The documents that paths stand for. A path to a file stands for itself; one to a directory for the
regular files with one of the extensions that a walk of the directory comes to. The walk is a
parameter; `FileSystem.visits` is one that leaves out what ignore files say.
-/

namespace Tangle

structure Visited where
  path : Path
  isFile : Bool
  deriving DecidableEq, Repr

/-- The entries below the directory that a path leads to; nothing for one that cannot be read. -/
abbrev Walk := Path → List (Option Visited)

namespace FileSystem

def documentsAmong (extensions : List String) (entries : List (Option Visited)) : List Path :=
  (entries.filterMap id).filterMap fun visited =>
    if visited.isFile && visited.path.matchesExtension extensions then some visited.path else none

def documentsAt (fs : FileSystem) (walk : Walk) (extensions : List String) (path : Path) :
    Except FileError (List Path) := do
  let place ← (fs.locate path).mapError (⟨path, ·⟩)
  if fs.isDirectoryAt place then return documentsAmong extensions (walk path)
  else return [path]

/-- The documents that paths stand for, in order and each once. -/
def findDocuments (fs : FileSystem) (walk : Walk) (extensions : List String) (paths : List Path) :
    Except FileError (List Path) := do
  let found ← paths.mapM (fs.documentsAt walk extensions)
  return (found.flatten.mergeSort Path.precedes).eraseRepsBy Path.same

/-- Whether bytes may name an entry of a directory: dots are kept for the directory and its parent. -/
def isName (name : FileName) : Bool := Path.counts name && name != FileName.dotDot

def namesIn (fs : FileSystem) (directory : Location) : List FileName :=
  fs.entries.filterMap fun (place, _) =>
    if place.dropLast = directory then place.getLast?.filter isName else none

def visitsBelow (fs : FileSystem) : Nat → Location → Path → List (Option Visited)
  | 0, _, _ => []
  | depth + 1, directory, path =>
    (fs.namesIn directory).flatMap fun name =>
      let place := directory ++ [name]
      if fs.isLeftOut place then []
      else match fs.get? place with
        | none => []
        | some (.file _) => [some ⟨path.push name, true⟩]
        | some (.link _) => [some ⟨path.push name, false⟩]
        | some .directory =>
          some ⟨path.push name, false⟩ :: fs.visitsBelow depth place (path.push name)

/-- A walk of the file system; no directory is deeper than there are entries. -/
def visits (fs : FileSystem) : Walk := fun path =>
  match fs.locate path with
  | .ok place => some ⟨path, false⟩ :: fs.visitsBelow fs.entries.length place path
  | .error _ => [none]

end FileSystem

end Tangle
