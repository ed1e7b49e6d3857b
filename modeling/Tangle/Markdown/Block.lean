import Tangle.Markdown.Inline

/-!
The outline of blocks. Sections are transparent: headings and what follows them become siblings.
Markers are dropped, and a block of any other kind is kept as its text.
-/

namespace Tangle.Markdown

inductive BlockRole where
  | section
  | atxHeading
  | setextHeading
  | paragraph
  | fencedCode
  | indentedCode
  | list
  | listItem
  | quote
  | thematicBreak
  | html
  | marker
  | other
  deriving DecidableEq, Repr

def isMarker (kind : String) : Bool :=
  ["list_marker", "task_list_marker", "atx_h", "setext_h"].any
      (fun start => start.toList.isPrefixOf kind.toList) ||
    ["block_continuation", "block_quote_marker", "fenced_code_block_delimiter", "info_string",
      "language"].contains kind

def BlockRole.ofKind (kind : String) : BlockRole :=
  match kind with
  | "section" => .section
  | "atx_heading" => .atxHeading
  | "setext_heading" => .setextHeading
  | "paragraph" => .paragraph
  | "fenced_code_block" => .fencedCode
  | "indented_code_block" => .indentedCode
  | "list" => .list
  | "list_item" => .listItem
  | "block_quote" => .quote
  | "thematic_break" => .thematicBreak
  | "html_block" => .html
  | kind => if isMarker kind then .marker else .other

def markerLevel? (kind : String) : Option Nat :=
  match "atx_h".toList.isPrefixOf? kind.toList with
  | some (c :: _) => if c.isDigit then some (c.toNat - '0'.toNat) else none
  | _ => none

def atxLevel (children : List ParseTree) : Nat :=
  (children.findSome? (markerLevel? ·.kind)).getD 1

def setextLevel (children : List ParseTree) : Nat :=
  if children.any (·.kind == "setext_h1_underline") then 1 else 2

/-- The span of a heading without a closing run of `#`, which has to stand apart from the text. -/
def openSpan (source : List Char) (span : Span) : Span :=
  let text := Text.slice source span
  let opened := Text.dropEndWhile (· == '#') text
  if opened.length = text.length then span
  else match opened.getLast? with
    | none => ⟨span.start, span.start⟩
    | some c =>
      if c = ' ' ∨ c = '\t' then ⟨span.start, span.start + Text.width (Text.trimEnd opened)⟩
      else span

def atxContent (source : List Char) (node : ParseTree) : List Outline :=
  match node.child? "inline" with
  | some line => inlineWithin source (openSpan source (Text.trimmed source line.span)) line
  | none => []

def setextContent (source : List Char) (node : ParseTree) : List Outline :=
  match (node.child? "paragraph").bind (·.child? "inline") with
  | some line => inlineContent source line
  | none => []

def paragraphContent (source : List Char) (node : ParseTree) : List Outline :=
  (node.children.filter (·.kind == "inline")).flatMap (inlineContent source)

mutual

def blockOutlines (source : List Char) : ParseTree → List Outline
  | .node kind span children inlines =>
    let node := ParseTree.node kind span children inlines
    match BlockRole.ofKind kind with
    | .section => blocksOutlines source children
    | .atxHeading => [.heading (atxLevel children) (atxContent source node)]
    | .setextHeading => [.heading (setextLevel children) (setextContent source node)]
    | .paragraph => [.branch .paragraph (paragraphContent source node)]
    | .fencedCode => [.leaf .codeBlock (fenceText source node)]
    | .indentedCode => [.leaf .codeBlock (dedent (Text.slice source span))]
    | .list => [.branch .list (blocksOutlines source children)]
    | .listItem => [.branch .listItem (blocksOutlines source children)]
    | .quote => [.branch .blockQuote (blocksOutlines source children)]
    | .thematicBreak => [.branch .thematicBreak []]
    | .html => [.leaf .htmlBlock (Text.slice source span)]
    | .marker => []
    | .other => [.leaf .other (Text.slice source (Text.trimmed source span))]

def blocksOutlines (source : List Char) : List ParseTree → List Outline
  | [] => []
  | node :: rest => blockOutlines source node ++ blocksOutlines source rest

end

end Tangle.Markdown
