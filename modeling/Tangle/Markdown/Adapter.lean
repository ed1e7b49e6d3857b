import Tangle.Markdown.Block

/-!
The document of a Markdown text. The parse is gone through once, and each node that is kept is added
below the node that was added for what it stands in.
-/

namespace Tangle

namespace Document

def pushLeaf (doc : Document) (parent : NodeId) (kind : Kind) (literal : List Char) : Document :=
  doc.append parent { kind := kind, literal := some (String.ofList literal) }

end Document

namespace Markdown

def pushText (source : List Char) (doc : Document) (parent : NodeId) (start stop : Nat) :
    Document :=
  match Text.slice source ⟨start, stop⟩ with
  | [] => doc
  | text => doc.pushLeaf parent .text text

mutual

def pushInline (source : List Char) (doc : Document) (parent : NodeId) : ParseTree → Document
  | .node kind span children _ =>
    match InlineRole.ofKind kind with
    | .delimiter => doc
    | .code => doc.pushLeaf parent .codeSpan (codeSpanText source span children)
    | .emphasis =>
      pushInlines source (doc.append parent { kind := .emphasis }) doc.size span span.start children
    | .strong =>
      pushInlines source (doc.append parent { kind := .strong }) doc.size span span.start children
    | .link =>
      let added := doc.append parent { kind := .link }
      ((pushLabel? source added doc.size "link_text" children).or
        (pushLabel? source added doc.size "image_description" children)).getD added
    | .autolink => doc.pushLeaf parent .text (autolinkText source span)
    | .escape => doc.pushLeaf parent .text (escapeText source span)
    | .lineBreak => doc.pushLeaf parent .lineBreak ['\n']
    | .plain => doc.pushLeaf parent .text (Text.slice source span)

/-- Adds what is left of a span whose text up to `done` has been added. -/
def pushInlines (source : List Char) (doc : Document) (parent : NodeId) (span : Span)
    (done : Nat) : List ParseTree → Document
  | [] => if done < span.stop then pushText source doc parent done span.stop else doc
  | node :: rest =>
    let start := max node.span.start span.start
    let stop := min node.span.stop span.stop
    if stop ≤ start then pushInlines source doc parent span done rest
    else
      let doc := if done < start then pushText source doc parent done start else doc
      pushInlines source (pushInline source doc parent node) parent span (max done stop) rest

def pushLabel? (source : List Char) (doc : Document) (parent : NodeId) (wanted : String) :
    List ParseTree → Option Document
  | [] => none
  | .node kind span children _ :: rest =>
    if kind = wanted then
      let label := Text.trimmed source span
      some (pushInlines source doc parent label label.start children)
    else pushLabel? source doc parent wanted rest

end

def pushWithin (source : List Char) (doc : Document) (parent : NodeId) (span : Span)
    (node : ParseTree) : Document :=
  pushInlines source doc parent span span.start node.inlines

def pushContent (source : List Char) (doc : Document) (parent : NodeId) (node : ParseTree) :
    Document :=
  pushWithin source doc parent (Text.trimmed source node.span) node

mutual

def pushBlock (source : List Char) (doc : Document) (parent : NodeId) : ParseTree → Document
  | .node kind span children inlines =>
    let node := ParseTree.node kind span children inlines
    match BlockRole.ofKind kind with
    | .section => pushBlocks source doc parent children
    | .atxHeading =>
      let added := doc.append parent { kind := .heading, level := atxLevel children }
      match node.child? "inline" with
      | some line =>
        pushWithin source added doc.size (openSpan source (Text.trimmed source line.span)) line
      | none => added
    | .setextHeading =>
      let added := doc.append parent { kind := .heading, level := setextLevel children }
      match (node.child? "paragraph").bind (·.child? "inline") with
      | some line => pushContent source added doc.size line
      | none => added
    | .paragraph =>
      (children.filter (·.kind == "inline")).foldl
        (fun added line => pushContent source added doc.size line)
        (doc.append parent { kind := .paragraph })
    | .fencedCode => doc.pushLeaf parent .codeBlock (fenceText source node)
    | .indentedCode => doc.pushLeaf parent .codeBlock (dedent (Text.slice source span))
    | .list => pushBlocks source (doc.append parent { kind := .list }) doc.size children
    | .listItem => pushBlocks source (doc.append parent { kind := .listItem }) doc.size children
    | .quote => pushBlocks source (doc.append parent { kind := .blockQuote }) doc.size children
    | .thematicBreak => doc.append parent { kind := .thematicBreak }
    | .html => doc.pushLeaf parent .htmlBlock (Text.slice source span)
    | .marker => doc
    | .other => doc.pushLeaf parent .other (Text.slice source (Text.trimmed source span))

def pushBlocks (source : List Char) (doc : Document) (parent : NodeId) :
    List ParseTree → Document
  | [] => doc
  | node :: rest => pushBlocks source (pushBlock source doc parent node) parent rest

end

/-- The document of a source text and its parse. -/
def document (source : String) (tree : ParseTree) : Document :=
  pushBlocks source.toList .empty Document.root tree.children

end Markdown

end Tangle
