/-!
What a document is made of: the kinds of node, the label a node carries, and the links that
place it among the others. A node is named by its position in the document that holds it.
-/

namespace Tangle

inductive Kind where
  | document
  | heading
  | paragraph
  | codeBlock
  | list
  | listItem
  | codeSpan
  | text
  | emphasis
  | strong
  | link
  | blockQuote
  | thematicBreak
  | htmlBlock
  | lineBreak
  | other
  deriving DecidableEq, Repr

namespace Kind

def all : List Kind :=
  [document, heading, paragraph, codeBlock, list, listItem, codeSpan, text, emphasis, strong,
    link, blockQuote, thematicBreak, htmlBlock, lineBreak, other]

def isLeaf : Kind → Bool
  | text | codeSpan | codeBlock | htmlBlock | lineBreak | thematicBreak | other => true
  | _ => false

end Kind

abbrev NodeId := Nat

/-- What a node says, apart from where it stands. The level is that of a heading. -/
structure Label where
  kind : Kind
  level : Nat := 0
  literal : Option String := none
  deriving DecidableEq, Repr

/-- A label and the five links of a node. A link may name a node that does not exist. -/
structure Node extends Label where
  parent : Option NodeId := none
  firstChild : Option NodeId := none
  lastChild : Option NodeId := none
  next : Option NodeId := none
  prev : Option NodeId := none
  deriving DecidableEq, Repr

inductive Link where
  | parent
  | firstChild
  | lastChild
  | next
  | prev
  deriving DecidableEq, Repr

def Node.setLink (node : Node) (target : Option NodeId) : Link → Node
  | .parent => { node with parent := target }
  | .firstChild => { node with firstChild := target }
  | .lastChild => { node with lastChild := target }
  | .next => { node with next := target }
  | .prev => { node with prev := target }

def Node.adopt (node : Node) (child : NodeId) : Node :=
  { node with firstChild := node.firstChild.or (some child), lastChild := some child }

end Tangle
