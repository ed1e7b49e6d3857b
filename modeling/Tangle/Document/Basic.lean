import Tangle.Document.Node

/-!
A document is a list of nodes joined by links. Position `0` is the root. Nodes are only ever
added at the end, so a position names the same node for good.
-/

namespace Tangle

structure Document where
  nodes : Array Node
  deriving DecidableEq, Repr

namespace Document

def root : NodeId := 0

def empty : Document := ⟨#[{ kind := .document }]⟩

def size (doc : Document) : Nat := doc.nodes.size

def isEmpty (doc : Document) : Bool := doc.size ≤ 1

def get? (doc : Document) (id : NodeId) : Option Node := doc.nodes[id]?

def kind? (doc : Document) (id : NodeId) : Option Kind := (doc.get? id).map (·.kind)

def hasKind (doc : Document) (kind : Kind) (id : NodeId) : Bool := doc.kind? id == some kind

def literal? (doc : Document) (id : NodeId) : Option String := (doc.get? id).bind (·.literal)

def parent? (doc : Document) (id : NodeId) : Option NodeId := (doc.get? id).bind (·.parent)

def firstChild? (doc : Document) (id : NodeId) : Option NodeId :=
  (doc.get? id).bind (·.firstChild)

def next? (doc : Document) (id : NodeId) : Option NodeId := (doc.get? id).bind (·.next)

def prev? (doc : Document) (id : NodeId) : Option NodeId := (doc.get? id).bind (·.prev)

def modify (doc : Document) (id : NodeId) (f : Node → Node) : Document :=
  ⟨doc.nodes.modify id f⟩

def setLink (doc : Document) (id : NodeId) (link : Link) (target : Option NodeId) : Document :=
  doc.modify id fun node => node.setLink target link

/--
Adds a node at the end of the document as the last child of `parent`. Its position is the size
of the document before. The sibling before it is read off first and the parent is linked last, so
a parent that is not in the document leaves the node without siblings, and a node added below its
own position to be becomes its own child.
-/
def append (doc : Document) (parent : NodeId) (label : Label) : Document :=
  let previous := (doc.get? parent).bind (·.lastChild)
  let added : Document := ⟨doc.nodes.push { label with parent := some parent, prev := previous }⟩
  let joined := match previous with
    | some sibling => added.modify sibling fun node => { node with next := some doc.size }
    | none => added
  joined.modify parent (·.adopt doc.size)

@[simp] theorem size_modify (doc : Document) (id : NodeId) (f : Node → Node) :
    (doc.modify id f).size = doc.size := by
  simp [modify, size]

@[simp] theorem size_setLink (doc : Document) (id : NodeId) (link : Link)
    (target : Option NodeId) : (doc.setLink id link target).size = doc.size := by
  simp [setLink]

@[simp] theorem size_append (doc : Document) (parent : NodeId) (label : Label) :
    (doc.append parent label).size = doc.size + 1 := by
  unfold append
  cases h : (doc.get? parent).bind (·.lastChild) <;> simp [size, modify]

theorem get?_modify (doc : Document) (id other : NodeId) (f : Node → Node) :
    (doc.modify id f).get? other =
      if id = other then (doc.get? other).map f else doc.get? other := by
  simp [modify, get?, Array.getElem?_modify]

end Document

end Tangle
