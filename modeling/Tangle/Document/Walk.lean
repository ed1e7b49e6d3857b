import Tangle.Document.Basic

/-!
The walk of a subtree, and the chains of nodes that one kind of link gives.

Both follow links and remember nothing, so where they stand decides where they go next. A walk
that stands twice in one place never ends: one that ends makes at most two visits to each node and
one attempt at a node that does not exist. A chain that ends names each node at most once and one
node that does not exist. These counts bound the two recursions.
-/

namespace Tangle

/-- A link that was followed names a node that the document does not have. -/
structure BrokenLink where
  node : NodeId
  deriving DecidableEq, Repr

def BrokenLink.message (broken : BrokenLink) : String :=
  s!"structural traversal failed at node #{broken.node}: " ++
    "link does not resolve inside the document"

inductive Phase where
  | enter
  | exit
  deriving DecidableEq, Repr

structure Visit where
  node : NodeId
  phase : Phase
  deriving DecidableEq, Repr

namespace Document

/--
Where a walk of the subtree at `start` goes after a visit to `node`: down to the first child or
out again, then on to the next sibling or up to the parent, until it leaves `start`.
-/
def after (start : NodeId) (node : Node) : Visit → Option Visit
  | ⟨id, .enter⟩ => some (match node.firstChild with
    | some child => ⟨child, .enter⟩
    | none => ⟨id, .exit⟩)
  | ⟨id, .exit⟩ =>
    if id = start then none
    else match node.next with
      | some sibling => some ⟨sibling, .enter⟩
      | none => node.parent.map (⟨·, .exit⟩)

def visits (doc : Document) (start : NodeId) :
    (steps : Nat) → (due : Option Visit) → List (Except BrokenLink Visit)
  | 0, _ => []
  | _ + 1, none => []
  | steps + 1, some visit =>
    match doc.get? visit.node with
    | none => [.error ⟨visit.node⟩]
    | some node => .ok visit :: doc.visits start steps (after start node visit)

/-- The visits to a subtree in document order. A broken link ends the walk and is its last item. -/
def walk (doc : Document) (start : NodeId) : List (Except BrokenLink Visit) :=
  doc.visits start (2 * doc.size + 1) (some ⟨start, .enter⟩)

def chain (doc : Document) (link : Node → Option NodeId) :
    (steps : Nat) → (due : Option NodeId) → List NodeId
  | 0, _ => []
  | _ + 1, none => []
  | steps + 1, some id => id :: doc.chain link steps ((doc.get? id).bind link)

/-- The nodes met from `first` on by following `link`, a last one that does not exist included. -/
def follow (doc : Document) (link : Node → Option NodeId) (first : Option NodeId) : List NodeId :=
  doc.chain link (doc.size + 1) first

def children (doc : Document) (id : NodeId) : List NodeId :=
  doc.follow (·.next) (doc.firstChild? id)

def ancestors (doc : Document) (id : NodeId) : List NodeId :=
  doc.follow (·.parent) (doc.parent? id)

def depth (doc : Document) (id : NodeId) : Nat := (doc.ancestors id).length

end Document

end Tangle
