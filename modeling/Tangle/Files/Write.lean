import Tangle.Files.Basic

/-!
Changes to a file system: directories, links and files. A change that takes several steps leaves
what it had done when it fails, so it gives the file system in any case. Besides what the entries
forbid, the operating system may refuse a step for reasons of its own.
-/

namespace Tangle

/-- Work that broke off after some of its parts, for a reason. -/
structure Breach where
  done : Nat
  reason : String
  deriving DecidableEq, Repr

/-- What the operating system refuses while one document is converted. -/
structure Faults where
  reading : Option String := none
  /-- Counts the directories above the source, from the root. -/
  making : Option Breach := none
  opening : Option String := none
  /-- Counts the bytes of the source that are in its file. -/
  writing : Option Breach := none
  printing : Option Breach := none
  deriving DecidableEq, Repr

def Path.above (path : Path) : List Path := (path.parent?.map ancestors).getD []

namespace FileSystem

open FileName

def splitLast? (segments : List FileName) : Option (List FileName × FileName) :=
  let body := Path.dropEndWhile (· == []) segments
  body.getLast?.map (body.dropLast, ·)

def locateParent (fs : FileSystem) (start : Location) (before : List FileName) :
    Except Cause Location := do
  let parent ← fs.walkFrom linkBound start before
  if fs.isDirectoryAt parent then .ok parent else .error .notDirectory

def isDots (segment : FileName) : Bool := segment == dot || segment == dotDot

def makeEntry (fs : FileSystem) (path : Path) (entry : Entry) : Except Cause FileSystem := do
  if path.isEmpty then .error .notFound
  else match splitLast? path.segments with
    | none => .error .alreadyExists
    | some (before, last) =>
      let parent ← fs.locateParent (startOf fs.working path) before
      if isDots last || (fs.get? (parent ++ [last])).isSome then .error .alreadyExists
      else .ok (fs.put (parent ++ [last]) entry)

def makeDirectory (fs : FileSystem) (path : Path) : Except Cause FileSystem :=
  fs.makeEntry path .directory

def makeLink (fs : FileSystem) (path target : Path) : Except Cause FileSystem :=
  fs.makeEntry path (.link target)

/--
Makes a directory and those above it that are missing, given nearest first. One that is there
already is no failure.
-/
def makeDirectories (fs : FileSystem) : List Path → FileSystem × Option Cause
  | [] => (fs, none)
  | path :: above =>
    match fs.makeDirectory path with
    | .ok made => (made, none)
    | .error .notFound =>
      match fs.makeDirectories above with
      | (begun, some cause) => (begun, some cause)
      | (begun, none) =>
        match begun.makeDirectory path with
        | .ok made => (made, none)
        | .error cause => (begun, if begun.isDirectory path then none else some cause)
    | .error cause => (fs, if fs.isDirectory path then none else some cause)

/-- Makes the directories above a file, or those of them that were made before work broke off. -/
def makeAbove (fs : FileSystem) (breach : Option Breach) (path : Path) :
    FileSystem × Option Cause :=
  match breach with
  | none => fs.makeDirectories path.above
  | some breach =>
    ((fs.makeDirectories (path.above.drop (path.above.length - breach.done))).1,
      some (.other breach.reason))

/--
Goes through segments from a place to that of a file to be written, which need not be there. A path
that ends with a slash or with dots names a directory.
-/
def advanceToWrite (fs : FileSystem) (follow : Location → List FileName → Except Cause Location) :
    Location → List FileName → Except Cause Location
  | _, [] => .error .isDirectory
  | place, segment :: rest =>
    if !fs.isDirectoryAt place then .error .notDirectory
    else if segment = [] ∨ segment = dot then fs.advanceToWrite follow place rest
    else if segment = dotDot then fs.advanceToWrite follow place.dropLast rest
    else if rest ≠ [] ∧ rest.all (· == []) then .error .isDirectory
    else match fs.get? (place ++ [segment]) with
      | none => if rest = [] then .ok (place ++ [segment]) else .error .notFound
      | some (.file _) => if rest = [] then .ok (place ++ [segment]) else .error .notDirectory
      | some .directory => fs.advanceToWrite follow (place ++ [segment]) rest
      | some (.link target) => follow (startOf place target) (target.segments ++ rest)

def placeFor (fs : FileSystem) : Nat → Location → List FileName → Except Cause Location
  | 0, _, _ => .error .tooManyLinks
  | links + 1, place, segments => fs.advanceToWrite (fs.placeFor links) place segments

/-- Opens a file to be written, which leaves it empty. -/
def openFile (fs : FileSystem) (refusal : Option String) (path : Path) :
    Except Cause (Location × FileSystem) := do
  if path.isEmpty then .error .notFound
  else
    let place ← fs.placeFor linkBound (startOf fs.working path) path.segments
    match refusal with
    | some reason => .error (.other reason)
    | none => return (place, fs.put place (.file .empty))

def written (breach : Option Breach) (content : ByteArray) : ByteArray :=
  match breach with
  | none => content
  | some breach => content.extract 0 breach.done

def fillFile (fs : FileSystem) (breach : Option Breach) (place : Location) (content : ByteArray) :
    FileSystem × Option Cause :=
  (fs.put place (.file (written breach content)), breach.map fun breach => .other breach.reason)

def writeFile (fs : FileSystem) (faults : Faults) (path : Path) (content : ByteArray) :
    FileSystem × Option Cause :=
  match fs.openFile faults.opening path with
  | .error cause => (fs, some cause)
  | .ok (place, opened) => opened.fillFile faults.writing place content

/-- Writes a file after making the directory that it goes into. -/
def writeOutput (fs : FileSystem) (faults : Faults) (path : Path) (content : ByteArray) :
    FileSystem × Except FileError Unit :=
  match fs.makeAbove faults.making path with
  | (begun, some cause) => (begun, .error ⟨path, cause⟩)
  | (begun, none) =>
    match begun.writeFile faults path content with
    | (written, none) => (written, .ok ())
    | (written, some cause) => (written, .error ⟨path, cause⟩)

end FileSystem

end Tangle
