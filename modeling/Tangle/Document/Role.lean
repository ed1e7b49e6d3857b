import Tangle.Document.Search

/-!
The parts that nodes play in a document. A heading may open a file or a function, a list item may
open a group of a signature or be an entry of one, and a code block belongs to the nearest heading
before it among its siblings.
-/

namespace Tangle

inductive Group where
  | parameters
  | returns
  deriving DecidableEq, Repr

namespace Group

def all : List Group := [parameters, returns]

def label : Group → String
  | parameters => "parameters"
  | returns => "returns"

end Group

def fileSuffix : String := ".go"

def functionOpening : String := "func "

/-- A code block under a heading: what the heading says and what the block holds. -/
structure ScopedBlock where
  heading : String
  body : String
  deriving DecidableEq, Repr

namespace Document

def headingToken? (doc : Document) (id : NodeId) : Option String :=
  if doc.hasKind .heading id then doc.firstLeafText? id else none

def fileHeading? (doc : Document) (id : NodeId) : Option String :=
  (doc.headingToken? id).filter fun token => fileSuffix.toList.isSuffixOf token.toList

def functionHeading? (doc : Document) (id : NodeId) : Except BrokenLink (Option String) :=
  if doc.headingToken? id = some functionOpening then some <$> doc.leafText id else .ok none

def isGroupItem (doc : Document) (group : Group) (id : NodeId) : Bool :=
  doc.hasKind .listItem id &&
    ((doc.firstChild? id).bind doc.firstLeafText?) == some group.label

def isUnderGroup (doc : Document) (group : Group) (id : NodeId) : Bool :=
  doc.hasKind .listItem id && (doc.findAncestor? id .listItem).any (doc.isGroupItem group)

/-- The text of an entry of the group: that of the code span found below it. -/
def entryText? (doc : Document) (group : Group) (id : NodeId) : Except BrokenLink (Option String) :=
  if doc.isUnderGroup group id then
    match doc.findDescendant? id .codeSpan with
    | some code => some <$> doc.leafText code
    | none => .ok none
  else .ok none

/-- The heading that a code block belongs to. -/
def owner? (doc : Document) (id : NodeId) : Option NodeId :=
  if doc.hasKind .codeBlock id then doc.findSibling? id .backward .heading else none

def codeBody (doc : Document) (id : NodeId) : String := (doc.literal? id).getD ""

def fileScope? (doc : Document) (id : NodeId) : Option ScopedBlock :=
  ((doc.owner? id).bind doc.fileHeading?).map (⟨·, doc.codeBody id⟩)

def functionScope? (doc : Document) (id : NodeId) : Except BrokenLink (Option ScopedBlock) :=
  match doc.owner? id with
  | some heading => (·.map (⟨·, doc.codeBody id⟩)) <$> doc.functionHeading? heading
  | none => .ok none

end Document

end Tangle
