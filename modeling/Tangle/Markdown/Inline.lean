import Tangle.Document.Outline
import Tangle.Markdown.Code

/-!
The outline of inline markup. The nodes of a span are taken in order and the text between them is
kept; delimiters are dropped.
-/

namespace Tangle.Markdown

inductive InlineRole where
  | delimiter
  | code
  | emphasis
  | strong
  | link
  | autolink
  | escape
  | lineBreak
  | plain
  deriving DecidableEq, Repr

def InlineRole.ofKind (kind : String) : InlineRole :=
  if "_delimiter".toList.isSuffixOf kind.toList then .delimiter
  else match kind with
    | "code_span" => .code
    | "emphasis" | "strikethrough" => .emphasis
    | "strong_emphasis" => .strong
    | "inline_link" | "full_reference_link" | "collapsed_reference_link" | "shortcut_link"
    | "image" => .link
    | "uri_autolink" | "email_autolink" => .autolink
    | "backslash_escape" => .escape
    | "hard_line_break" => .lineBreak
    | _ => .plain

def gap (source : List Char) (start stop : Nat) : List Outline :=
  match if start < stop then Text.slice source ⟨start, stop⟩ else [] with
  | [] => []
  | text => [.leaf .text text]

def autolinkText (source : List Char) (span : Span) : List Char :=
  Text.dropEndWhile (· == '>') ((Text.slice source span).dropWhile (· == '<'))

def escapeText (source : List Char) (span : Span) : List Char :=
  (Text.dropBytes? 1 (Text.slice source span)).getD []

mutual

def inlineOutline (source : List Char) : ParseTree → List Outline
  | .node kind span children _ =>
    match InlineRole.ofKind kind with
    | .delimiter => []
    | .code => [.leaf .codeSpan (codeSpanText source span children)]
    | .emphasis => [.branch .emphasis (inlineOutlines source span span.start children)]
    | .strong => [.branch .strong (inlineOutlines source span span.start children)]
    | .link =>
      [.branch .link (((labelOutlines? source "link_text" children).or
        (labelOutlines? source "image_description" children)).getD [])]
    | .autolink => [.leaf .text (autolinkText source span)]
    | .escape => [.leaf .text (escapeText source span)]
    | .lineBreak => [.leaf .lineBreak ['\n']]
    | .plain => [.leaf .text (Text.slice source span)]

/-- The outlines of a span whose text up to `done` is accounted for, from its remaining nodes. -/
def inlineOutlines (source : List Char) (span : Span) (done : Nat) :
    List ParseTree → List Outline
  | [] => gap source done span.stop
  | node :: rest =>
    let start := max node.span.start span.start
    let stop := min node.span.stop span.stop
    if stop ≤ start then inlineOutlines source span done rest
    else
      gap source done start ++ inlineOutline source node ++
        inlineOutlines source span (max done stop) rest

def labelOutlines? (source : List Char) (wanted : String) :
    List ParseTree → Option (List Outline)
  | [] => none
  | .node kind span children _ :: rest =>
    if kind = wanted then
      let label := Text.trimmed source span
      some (inlineOutlines source label label.start children)
    else labelOutlines? source wanted rest

end

def inlineWithin (source : List Char) (span : Span) (node : ParseTree) : List Outline :=
  inlineOutlines source span span.start node.inlines

def inlineContent (source : List Char) (node : ParseTree) : List Outline :=
  inlineWithin source (Text.trimmed source node.span) node

end Tangle.Markdown
