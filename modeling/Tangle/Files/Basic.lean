import Tangle.Path.Basic

/-!
A file system: what stands at which place, and how a path leads to a place. Places are the names
from the root down. A path goes through links, and through anything else only where it is a
directory.
-/

namespace Tangle

abbrev Location := List FileName

inductive Entry where
  | file (content : ByteArray)
  | directory
  | link (target : Path)

instance : DecidableEq Entry
  | .file left, .file right =>
    match ByteArray.instDecidableEq left right with
    | isTrue same => isTrue (congrArg Entry.file same)
    | isFalse different => isFalse fun same => different (Entry.file.inj same)
  | .link left, .link right =>
    match decEq left right with
    | isTrue same => isTrue (congrArg Entry.link same)
    | isFalse different => isFalse fun same => different (Entry.link.inj same)
  | .directory, .directory => isTrue rfl
  | .file _, .directory => isFalse nofun
  | .file _, .link _ => isFalse nofun
  | .directory, .file _ => isFalse nofun
  | .directory, .link _ => isFalse nofun
  | .link _, .file _ => isFalse nofun
  | .link _, .directory => isFalse nofun

structure FileSystem where
  entries : List (Location × Entry)
  /-- The place where paths start that do not start at the root. -/
  working : Location

inductive Cause where
  | notFound
  | alreadyExists
  | notDirectory
  | isDirectory
  | tooManyLinks
  | notUtf8
  /-- What the operating system refuses for a reason of its own: permissions, a full disk. -/
  | other (reason : String)
  deriving DecidableEq, Repr

def Cause.message : Cause → String
  | notFound => "No such file or directory (os error 2)"
  | alreadyExists => "File exists (os error 17)"
  | notDirectory => "Not a directory (os error 20)"
  | isDirectory => "Is a directory (os error 21)"
  | tooManyLinks => "Too many levels of symbolic links (os error 40)"
  | notUtf8 => "stream did not contain valid UTF-8"
  | other reason => reason

structure FileError where
  path : Path
  cause : Cause
  deriving DecidableEq, Repr

def FileError.message (error : FileError) : String :=
  "I/O error on " ++ error.path.display ++ ": " ++ error.cause.message

namespace FileSystem

open FileName

def fresh (working : FileName) : FileSystem := ⟨[([working], .directory)], [working]⟩

def get? (fs : FileSystem) (place : Location) : Option Entry :=
  if place = [] then some .directory else fs.entries.lookup place

def isDirectoryAt (fs : FileSystem) (place : Location) : Bool :=
  fs.get? place == some .directory

def put (fs : FileSystem) (place : Location) (entry : Entry) : FileSystem :=
  { fs with entries := (place, entry) :: fs.entries.filter (·.1 != place) }

def startOf (place : Location) (path : Path) : Location :=
  if path.anchor = .root then [] else place

/-- Goes through segments from a place, and on with `follow` where a link comes in. -/
def advance (fs : FileSystem) (follow : Location → List FileName → Except Cause Location) :
    Location → List FileName → Except Cause Location
  | place, [] => .ok place
  | place, segment :: rest =>
    if !fs.isDirectoryAt place then .error .notDirectory
    else if segment = [] ∨ segment = dot then fs.advance follow place rest
    else if segment = dotDot then fs.advance follow place.dropLast rest
    else match fs.get? (place ++ [segment]) with
      | none => .error .notFound
      | some (.link target) => follow (startOf place target) (target.segments ++ rest)
      | some _ => fs.advance follow (place ++ [segment]) rest

def walkFrom (fs : FileSystem) : Nat → Location → List FileName → Except Cause Location
  | 0, _, _ => .error .tooManyLinks
  | links + 1, place, segments => fs.advance (fs.walkFrom links) place segments

/-- One more than the number of links that a path may go through. -/
def linkBound : Nat := 41

def locate (fs : FileSystem) (path : Path) : Except Cause Location :=
  if path.isEmpty then .error .notFound
  else fs.walkFrom linkBound (startOf fs.working path) path.segments

def isDirectory (fs : FileSystem) (path : Path) : Bool :=
  match fs.locate path with
  | .ok place => fs.isDirectoryAt place
  | .error _ => false

/-- The content of the file at a place. -/
def contentAt (fs : FileSystem) (place : Location) : Except Cause ByteArray :=
  match fs.get? place with
  | some (.file content) => .ok content
  | some .directory => .error .isDirectory
  | _ => .error .notFound

def read (fs : FileSystem) (path : Path) : Except FileError ByteArray :=
  (fs.locate path >>= fs.contentAt).mapError (⟨path, ·⟩)

def readUnless (fs : FileSystem) (refusal : Option String) (path : Path) :
    Except FileError ByteArray :=
  match refusal with
  | some reason => .error ⟨path, .other reason⟩
  | none => fs.read path

def listing (fs : FileSystem) : List (Location × Entry) :=
  fs.entries.filterMap fun (place, entry) =>
    match fs.working.isPrefixOf? place with
    | some [] => none
    | some names => some (names, entry)
    | none => none

theorem get?_put_same (fs : FileSystem) {place : Location} (entry : Entry) (h : place ≠ []) :
    (fs.put place entry).get? place = some entry := by
  simp [get?, put, h]

theorem get?_put_other (fs : FileSystem) {place other : Location} (entry : Entry)
    (h : other ≠ place) : (fs.put place entry).get? other = fs.get? other := by
  have ne : (other == place) = false := by simp [h]
  have kept : (fs.entries.filter (·.1 != place)).lookup other = fs.entries.lookup other := by
    induction fs.entries with
    | nil => rfl
    | cons head tail ih =>
      obtain ⟨key, entry⟩ := head
      by_cases there : key = place
      · simp [there, ih, List.lookup_cons, ne]
      · simp [List.lookup_cons, ih, there]
  simp [get?, put, List.lookup_cons, ne, kept]

end FileSystem

end Tangle
