import Tangle.Command.Run

/-!
The program. It takes stock of the working directory and of the paths it is given, runs on that,
and then carries out the changes. The Markdown parser works beforehand: it leaves the rows of a
document one per line in a file beside it, of the same name with `.rows` after it.
-/

namespace Tangle.Program

def locationOf (path : String) : Location :=
  (Path.ofString path).segments.filter Path.counts

def nameOf (place : Location) : String := (⟨.root, place⟩ : Path).display

def real? (path : String) : IO (Option String) := do
  try return some (← IO.FS.realPath path).toString
  catch _ => return none

/-- Where a link leads, or a place that cannot be if it leads nowhere. -/
def targetOf (path : String) : IO Path := do
  return ((← real? path).map Path.ofString).getD ⟨.root, [[0]]⟩

partial def survey (place : Location) : IO (List (Location × Entry)) := do
  let path ← IO.FS.realPath (nameOf place)
  if ← path.isDir then
    let below ← (← path.readDir).toList.mapM fun item => do
      let inside := place ++ [Text.encode item.fileName]
      match (← item.path.symlinkMetadata).type with
      | .symlink => return [(inside, Entry.link (← targetOf item.path.toString))]
      | .other => return []
      | _ => survey inside
    return (place, .directory) :: below.flatten
  else return [(place, .file (← IO.FS.readBinFile path))]

def surveyAbove (place : Location) : IO (List (Location × Entry)) := do
  let marks ← [".ignore", ".gitignore", ".git"].mapM fun name => do
    let inside := place ++ [Text.encode name]
    match ← real? (nameOf inside) with
    | some path =>
      if ← (← IO.FS.realPath path).isDir then return [(inside, Entry.directory)]
      else return [(inside, .file (← IO.FS.readBinFile path))]
    | none => return []
  return (place, .directory) :: marks.flatten

def surveyRoot (place : Location) : IO (List (Location × Entry)) := do
  let above ← ((List.range place.length).map place.take).mapM surveyAbove
  return above.flatten ++ (← survey place)

/-- The file system as far as a run with these paths can see it. -/
def takeStock (paths : List String) : IO FileSystem := do
  let working := locationOf (← IO.currentDir).toString
  let places := (← paths.mapM real?).filterMap (·.map locationOf)
  let outside ← (places.filter (!working.isPrefixOf ·)).mapM surveyRoot
  return ⟨(← surveyRoot working) ++ outside.flatten, working⟩

def parsesIn (fs : FileSystem) : List (String × Markdown.ParseTree) :=
  fs.entries.filterMap fun (place, entry) => do
    let name ← place.getLast?
    let rows ← (fs.contentAt (place.dropLast ++ [name ++ Text.encode ".rows"])).toOption
    match entry with
    | .file content =>
      let lines := (← String.fromUTF8? rows).splitOn "\n"
      return (← String.fromUTF8? content, .ofRows (lines.filterMap Markdown.Row.ofLine?))
    | _ => none

def carryOut (before after : FileSystem) : IO Unit := do
  for (place, entry) in (after.entries.filter (!before.entries.contains ·)).reverse do
    match entry with
    | .directory => IO.FS.createDirAll (nameOf place)
    | .file content => IO.FS.writeBinFile (nameOf place) content
    | .link _ => pure ()

end Tangle.Program

open Tangle in
def main (arguments : List String) : IO UInt32 := do
  let arguments := arguments.map Text.encode
  let paths := match Options.ofArguments arguments with
    | .ok options => options.paths.map Path.display
    | .error _ => []
  let fs ← Program.takeStock paths
  let parses := Program.parsesIn fs
  let parser : Parser := fun text => (parses.lookup text).getD .nothing
  let outcome := run (.standard parser) {} fs arguments
  Program.carryOut fs outcome.files
  (← IO.getStdout).write ⟨outcome.stdout.toArray⟩
  for message in outcome.messages do
    IO.eprintln message
  return outcome.exitCode.toUInt32
