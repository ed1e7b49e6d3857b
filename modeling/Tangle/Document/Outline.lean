import Tangle.Document.Basic

/-!
An outline is an ordered tree of labels. A document holds one by adding its nodes in preorder, so
positions follow document order.
-/

namespace Tangle

inductive Outline where
  | node (label : Label) (children : List Outline)

namespace Outline

def leaf (kind : Kind) (literal : List Char) : Outline :=
  node { kind := kind, literal := some (String.ofList literal) } []

def branch (kind : Kind) (children : List Outline) : Outline :=
  node { kind := kind } children

def heading (level : Nat) (children : List Outline) : Outline :=
  node { kind := .heading, level := level } children

end Outline

namespace Document

mutual

def appendOutline (doc : Document) (parent : NodeId) : Outline → Document
  | .node label children =>
    (doc.append parent label).appendOutlines doc.size children

def appendOutlines (doc : Document) (parent : NodeId) : List Outline → Document
  | [] => doc
  | outline :: rest => (doc.appendOutline parent outline).appendOutlines parent rest

end

/-- The document whose root has the given children. -/
def ofOutlines (outlines : List Outline) : Document := empty.appendOutlines root outlines

end Document

end Tangle
