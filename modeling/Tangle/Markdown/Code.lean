import Tangle.Markdown.ParseTree

/-!
The text of code in Markdown: fenced and indented blocks, and code spans.
-/

namespace Tangle.Markdown

def withFinalBreak (text : List Char) : List Char :=
  if text = [] ∨ text.getLast? = some '\n' then text else text ++ ['\n']

def lines : List Char → List (List Char)
  | [] => []
  | c :: cs =>
    if c = '\n' then ['\n'] :: lines cs
    else match lines cs with
      | [] => [[c]]
      | line :: rest => (c :: line) :: rest

def dropSpaces : Nat → List Char → List Char
  | n + 1, ' ' :: cs => dropSpaces n cs
  | _, cs => cs

/-- An indented block without its indentation and without the blank lines at its end. -/
def dedent (text : List Char) : List Char :=
  let kept := ((lines text).map (dropSpaces 4)).reverse.dropWhile Text.isAllBlank
  withFinalBreak kept.reverse.flatten

/-- A code span may be padded by one space on each side, unless it is blank. -/
def withoutPadding (inner : List Char) : List Char :=
  match inner with
  | ' ' :: rest =>
    let core := rest.dropLast
    if rest.getLast? = some ' ' ∧ ¬ Text.isAllBlank core then core else inner
  | _ => inner

/-- The text between the delimiters of a code span, or else without the backticks around it. -/
def codeSpanInner (source : List Char) (span : Span) (children : List ParseTree) : List Char :=
  let delimiters := children.filter (·.kind == "code_span_delimiter")
  let bare := Text.dropEndWhile (· == '`') ((Text.slice source span).dropWhile (· == '`'))
  match delimiters.head?, delimiters.getLast? with
  | some first, some last =>
    if first.span.stop ≤ last.span.start then
      Text.slice source ⟨first.span.stop, last.span.start⟩
    else bare
  | _, _ => bare

def codeSpanText (source : List Char) (span : Span) (children : List ParseTree) : List Char :=
  withoutPadding (codeSpanInner source span children)

def fenceText (source : List Char) (block : ParseTree) : List Char :=
  withFinalBreak (match block.child? "code_fence_content" with
    | some content => Text.slice source content.span
    | none => [])

end Tangle.Markdown
