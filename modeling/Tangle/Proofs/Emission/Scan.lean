import Tangle.Emission
import Tangle.Proofs.Outline.Reading

/-!
The source of an ordered tree in a single pass. Each list of siblings is scanned once from left to
right, and the scan carries no more than what it has passed since the latest heading. From above it
knows the group of the nearest list item around, and a code block is told whether another one
follows before the next heading.
-/

namespace Tangle

/-- What a scan of siblings has passed. -/
structure Passed where
  /-- The topic of the latest heading. -/
  topic : Option Topic := none
  /-- Whether a code block came since that heading. -/
  chunk : Bool := false
  /-- Whether the latest list since that heading opens with a group. -/
  groups : Bool := false
  /-- Whether the latest list item since that heading has a code span, if one came. -/
  item : Option Bool := none
  deriving DecidableEq, Repr

namespace Outline

def opensGroup (outline : Outline) : Bool :=
  outline.children.head?.any fun first => first.group?.isSome

def hasCodeSpan (outline : Outline) : Bool := (outline.findDescendant? .codeSpan).isSome

end Outline

def Passed.pass (passed : Passed) (outline : Outline) : Passed :=
  match outline.kind with
  | .heading => { topic := some outline.topic }
  | .codeBlock => { passed with chunk := true }
  | .list => { passed with groups := outline.opensGroup }
  | .listItem => { passed with item := some outline.hasCodeSpan }
  | _ => passed

def Passed.over (outlines : List Outline) : Passed := outlines.foldl Passed.pass {}

namespace Outline

def sinceHeading (outlines : List Outline) : List Outline :=
  outlines.reverse.takeWhile (·.kind != .heading)

def chunkAhead : List Outline → Bool
  | [] => false
  | outline :: rest =>
    match outline.kind with
    | .heading => false
    | .codeBlock => true
    | _ => chunkAhead rest

def codePieces (passed : Passed) (ahead : Bool) (body : String) : List Piece :=
  match passed.topic with
  | some .file => [.prologue body]
  | some .function =>
    (if passed.chunk then []
      else if passed.groups then [.openBody]
      else [.noGroups, .openBody]) ++
    .chunk body :: (if ahead then [] else [.closeBody])
  | _ => []

def openingPieces (passed : Passed) : Group → List Piece
  | .parameters => [.openGroup]
  | .returns => if passed.item.isNone then [.noParameters, .openGroup] else [.openGroup]

def entryPiece (text : String) : Group → Piece
  | .parameters => .parameter text
  | .returns => .result text

def entryPieces (passed : Passed) (group : Group) (outline : Outline) : List Piece :=
  match outline.findDescendant? .codeSpan with
  | some code =>
    (if passed.item = some true then [.separator] else []) ++ [entryPiece code.leafText group]
  | none => []

/-- A list item may open one group and be an entry of another. -/
def itemPieces (around : Option Group) (passed : Passed) (outline : Outline) : List Piece :=
  Group.all.flatMap fun group =>
    (if outline.group? = some group then openingPieces passed group else []) ++
      (if around = some group then entryPieces passed group outline else [])

def enterPieces (around : Option Group) (passed : Passed) (ahead : Bool) (outline : Outline) :
    List Piece :=
  match outline.kind with
  | .codeBlock => codePieces passed ahead (outline.label.literal.getD "")
  | .heading => if outline.topic = .function then [.signature outline.leafText] else []
  | .listItem => itemPieces around passed outline
  | _ => []

def exitPieces (outline : Outline) : List Piece :=
  if outline.group?.isSome then [.closeGroup] else []

def around (outer : Option Group) (outline : Outline) : Option Group :=
  if outline.kind = .listItem then outline.group? else outer

mutual

def scan (outer : Option Group) (passed : Passed) (ahead : Bool) : Outline → List Piece
  | node label children =>
    enterPieces outer passed ahead (node label children) ++
      scanAll (around outer (node label children)) {} children ++
        exitPieces (node label children)

def scanAll (outer : Option Group) (passed : Passed) : List Outline → List Piece
  | [] => []
  | outline :: rest =>
    outline.scan outer passed (chunkAhead rest) ++ scanAll outer (passed.pass outline) rest

end

def pieces (outline : Outline) : List Piece := outline.scan none {} false

theorem chunkAhead_eq (outlines : List Outline) : chunkAhead outlines =
    ((outlines.takeWhile (·.kind != .heading)).find? (·.kind == .codeBlock)).isSome := by
  induction outlines with
  | nil => rfl
  | cons outline rest ih =>
    rw [chunkAhead, List.takeWhile_cons]
    cases kind : outline.kind <;> simp [kind, ih]

theorem scan_eq (outer : Option Group) (passed : Passed) (ahead : Bool) (outline : Outline) :
    outline.scan outer passed ahead = enterPieces outer passed ahead outline ++
      scanAll (outline.around outer) {} outline.children ++ outline.exitPieces := by
  cases outline with
  | node label children => rw [scan, children_node]

end Outline

/-- What has been passed is what searches back from the end would find. -/
theorem Passed.over_eq (outlines : List Outline) : Passed.over outlines =
    { topic := (outlines.reverse.find? (·.kind == .heading)).map Outline.topic
      chunk := ((Outline.sinceHeading outlines).find? (·.kind == .codeBlock)).isSome
      groups := ((Outline.sinceHeading outlines).find? (·.kind == .list)).any Outline.opensGroup
      item := ((Outline.sinceHeading outlines).find? (·.kind == .listItem)).map
        Outline.hasCodeSpan } := by
  unfold Passed.over Outline.sinceHeading
  rw [← List.foldr_reverse]
  induction outlines.reverse with
  | nil => rfl
  | cons outline before ih =>
    rw [List.foldr_cons, ih, Passed.pass]
    cases kind : outline.kind <;> simp [kind]

end Tangle
