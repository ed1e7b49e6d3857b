import Tangle.Text.Span

/-!
The parse of a Markdown text: named nodes with the spans they cover. A parser lists them as rows
in preorder. A node of kind `inline` has besides its children a second parse, of its inline markup,
under a row of its own kind.
-/

namespace Tangle.Markdown

inductive ParseTree where
  | node (kind : String) (span : Span) (children inlines : List ParseTree)

namespace ParseTree

def kind : ParseTree → String
  | node kind _ _ _ => kind

def span : ParseTree → Span
  | node _ span _ _ => span

def children : ParseTree → List ParseTree
  | node _ _ children _ => children

def inlines : ParseTree → List ParseTree
  | node _ _ _ inlines => inlines

def child? (tree : ParseTree) (kind : String) : Option ParseTree :=
  tree.children.find? (·.kind == kind)

def nothing : ParseTree := node "document" ⟨0, 0⟩ [] []

end ParseTree

structure Row where
  depth : Nat
  kind : String
  span : Span
  deriving DecidableEq, Repr

namespace Row

def ofLine? (line : String) : Option Row :=
  match line.splitOn " " with
  | [depth, kind, start, stop] => do
    return ⟨← depth.toNat?, kind, ⟨← start.toNat?, ← stop.toNat?⟩⟩
  | _ => none

def inlineRoot : String := "@inline"

/-- Puts a row before the trees of the rows after it: those that are deeper come below it. -/
def plant (row : Row) (later : List (Nat × ParseTree)) : List (Nat × ParseTree) :=
  let below := (later.takeWhile (row.depth < ·.1)).map (·.2)
  let (roots, children) := below.partition (·.kind == inlineRoot)
  (row.depth, .node row.kind row.span children (roots.flatMap (·.children))) ::
    later.dropWhile (row.depth < ·.1)

end Row

def ParseTree.ofRows (rows : List Row) : ParseTree :=
  match rows.foldr Row.plant [] with
  | (_, tree) :: _ => tree
  | [] => nothing

end Tangle.Markdown
