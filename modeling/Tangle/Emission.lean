import Tangle.Document.Role

/-!
The source that a document spells out. A walk of the document turns visits into pieces of source;
a piece keeps apart the brackets, which the walk puts in, from the texts, which the document holds.
-/

namespace Tangle

/-- What opens the body of a function. -/
def bodyStart : String := String.ofList [' ', '{', '\n']

def bodyEnd : String := String.ofList ['}', '\n', '\n']

inductive Piece where
  /-- Code of a file section. -/
  | prologue (body : String)
  | signature (text : String)
  | openGroup
  | closeGroup
  /-- The empty parameter list before a group of returns. -/
  | noParameters
  /-- The empty parameter list of a function without groups. -/
  | noGroups
  | separator
  | parameter (text : String)
  | result (text : String)
  | openBody
  | chunk (body : String)
  | closeBody
  deriving DecidableEq, Repr

namespace Piece

def text : Piece → String
  | prologue body => body ++ "\n\n"
  | signature text => text
  | openGroup => "( "
  | closeGroup => ") "
  | noParameters => "() "
  | noGroups => "()"
  | separator => ", "
  | parameter text => text
  | result text => text ++ " "
  | openBody => bodyStart
  | chunk body => body
  | closeBody => bodyEnd

def signature? : Piece → Option String
  | signature text => some text
  | _ => none

end Piece

structure Generated where
  source : String
  signatures : List String
  deriving DecidableEq, Repr

def Generated.ofPieces (pieces : List Piece) : Generated where
  source := String.join (pieces.map Piece.text)
  signatures := pieces.filterMap Piece.signature?

namespace Document

def inSection? (doc : Document) (id : NodeId) (direction : Direction) (kind : Kind) :
    Except BrokenLink (Option NodeId) :=
  doc.findBounded? id kind direction .heading

def hasGroupList (doc : Document) (group : Group) (id : NodeId) : Except BrokenLink Bool := do
  let list ← doc.inSection? id .backward .list
  return (list.bind doc.firstChild?).any (doc.isGroupItem group)

def followsEntry (doc : Document) (group : Group) (id : NodeId) : Except BrokenLink Bool := do
  match ← doc.inSection? id .backward .listItem with
  | some item => return (← doc.entryText? group item).isSome
  | none => return false

def prologuePieces (doc : Document) (id : NodeId) : List Piece :=
  match doc.fileScope? id with
  | some block => [.prologue block.body]
  | none => []

def bodyOpening (doc : Document) (id : NodeId) : Except BrokenLink (List Piece) := do
  if ← doc.hasGroupList .parameters id then return [.openBody]
  if ← doc.hasGroupList .returns id then return [.openBody]
  return [.noGroups, .openBody]

/-- A chunk of a function body, which opens before the first and closes after the last. -/
def chunkPieces (doc : Document) (id : NodeId) (body : String) :
    Except BrokenLink (List Piece) := do
  let before ← doc.inSection? id .backward .codeBlock
  let opening ← if before.isNone then doc.bodyOpening id else .ok []
  let later ← doc.inSection? id .forward .codeBlock
  return opening ++ .chunk body :: (if later.isNone then [.closeBody] else [])

def codePieces (doc : Document) (id : NodeId) : Except BrokenLink (List Piece) := do
  match ← doc.functionScope? id with
  | some block => return doc.prologuePieces id ++ (← doc.chunkPieces id block.body)
  | none => return doc.prologuePieces id

def headingPieces (doc : Document) (id : NodeId) : Except BrokenLink (List Piece) := do
  return (← doc.functionHeading? id).toList.map .signature

/-- What stands before the entries of a group: one of returns first makes up for parameters. -/
def groupOpening (doc : Document) (group : Group) (id : NodeId) :
    Except BrokenLink (List Piece) := do
  if doc.isGroupItem group id then
    match group with
    | .parameters => return [.openGroup]
    | .returns =>
      let before ← doc.inSection? id .backward .listItem
      return if before.isNone then [.noParameters, .openGroup] else [.openGroup]
  else return []

def entryPieces (doc : Document) (group : Group) (id : NodeId) :
    Except BrokenLink (List Piece) := do
  match ← doc.entryText? group id with
  | some text =>
    let separated ← doc.followsEntry group id
    let piece : Piece := match group with
      | .parameters => .parameter text
      | .returns => .result text
    return if separated then [.separator, piece] else [piece]
  | none => return []

def itemPieces (doc : Document) (id : NodeId) : Except BrokenLink (List Piece) := do
  let pieces ← Group.all.mapM fun group => do
    return (← doc.groupOpening group id) ++ (← doc.entryPieces group id)
  return pieces.flatten

def enterPieces (doc : Document) (id : NodeId) : Except BrokenLink (List Piece) :=
  match doc.kind? id with
  | some .codeBlock => doc.codePieces id
  | some .heading => doc.headingPieces id
  | some .listItem => doc.itemPieces id
  | _ => .ok []

def exitPieces (doc : Document) (id : NodeId) : List Piece :=
  if Group.all.any (doc.isGroupItem · id) then [.closeGroup] else []

def visitPieces (doc : Document) : Visit → Except BrokenLink (List Piece)
  | ⟨id, .enter⟩ => doc.enterPieces id
  | ⟨id, .exit⟩ => .ok (doc.exitPieces id)

/-- The pieces of a document in order, or the first broken link that gets in the way. -/
def pieces (doc : Document) : Except BrokenLink (List Piece) := do
  let pieces ← (doc.walk root).mapM fun visit => do doc.visitPieces (← visit)
  return pieces.flatten

def emit (doc : Document) : Except BrokenLink Generated :=
  Generated.ofPieces <$> doc.pieces

end Document

end Tangle
