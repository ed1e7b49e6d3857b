import Tangle.Document.Walk

/-!
Searches along the links of a document, and the plain text of a subtree.
-/

namespace Tangle

inductive Direction where
  | forward
  | backward
  deriving DecidableEq, Repr

def Direction.link : Direction → Node → Option NodeId
  | .forward => (·.next)
  | .backward => (·.prev)

namespace Document

def ownText (doc : Document) (id : NodeId) : String :=
  match doc.get? id with
  | some node => if node.kind.isLeaf then node.literal.getD "" else ""
  | none => ""

def visitText (doc : Document) : Visit → String
  | ⟨id, .enter⟩ => doc.ownText id
  | ⟨_, .exit⟩ => ""

def leafText (doc : Document) (id : NodeId) : Except BrokenLink String := do
  let visits ← (doc.walk id).mapM fun visit => visit
  return String.join (visits.map doc.visitText)

/-- The first leaf on the way down from `id` along first children, below `id` itself. -/
def firstLeaf? (doc : Document) (id : NodeId) : Option NodeId :=
  (doc.follow (·.firstChild) (doc.firstChild? id)).find? fun below =>
    (doc.kind? below).any Kind.isLeaf

def firstLeafText? (doc : Document) (id : NodeId) : Option String :=
  (doc.firstLeaf? id).bind doc.literal?

def findAncestor? (doc : Document) (id : NodeId) (kind : Kind) : Option NodeId :=
  (doc.ancestors id).find? (doc.hasKind kind)

def siblings (doc : Document) (id : NodeId) (direction : Direction) : List NodeId :=
  doc.follow direction.link ((doc.get? id).bind direction.link)

def findSibling? (doc : Document) (id : NodeId) (direction : Direction) (kind : Kind) :
    Option NodeId :=
  (doc.siblings id direction).find? (doc.hasKind kind)

def siblingsBefore (doc : Document) (id : NodeId) (direction : Direction) (boundary : Kind) :
    List NodeId :=
  (doc.siblings id direction).takeWhile fun sibling => !doc.hasKind boundary sibling

def readsAs (doc : Document) (wanted : Option String) (id : NodeId) : Except BrokenLink Bool :=
  match wanted with
  | none => .ok true
  | some text => (· == text) <$> doc.leafText id

/--
The nearest sibling of a kind before the boundary kind, and where a text is wanted, with that
text. The text is read only from siblings of the right kind.
-/
def findBounded? (doc : Document) (id : NodeId) (kind : Kind) (direction : Direction)
    (boundary : Kind) (wanted : Option String := none) : Except BrokenLink (Option NodeId) :=
  ((doc.siblingsBefore id direction boundary).filter (doc.hasKind kind)).findM? (doc.readsAs wanted)

/--
The first node of a kind below `id` on the way that goes down where it can, else to the next
sibling, and ends where it can do neither.
-/
def findDescendant? (doc : Document) (id : NodeId) (kind : Kind) : Option NodeId :=
  (doc.follow (fun node => node.firstChild.or node.next) (doc.firstChild? id)).find?
    (doc.hasKind kind)

end Document

end Tangle
