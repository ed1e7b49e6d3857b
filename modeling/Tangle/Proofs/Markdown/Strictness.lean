import Tangle.Proofs.Document.Planting
import Tangle.Proofs.Markdown.Adapting
import Tangle.Proofs.Markdown.Titles
import Tangle.Proofs.Text.Strict

/-!
The strict reading of a parse: every difference, sum, cut and change of a node on the way from a
source and its parse to a document is one that can fault. It never does. The spans of a parse may
run backwards, past the end or into a character; all that is asked is that their ends are no larger
than the largest offset there is.
-/

namespace Tangle

namespace Strict

open Text Markdown

def dropSpaces (n : Nat) (line : List Char) : Except Fault (List Char) :=
  cutAt (dropBytes? ((line.take n).takeWhile (· == ' ')).length line)

def dedent (text : List Char) : Except Fault (List Char) := do
  let kept := (← (lines text).mapM (dropSpaces 4)).reverse.dropWhile isAllBlank
  return withFinalBreak kept.reverse.flatten

def codeSpanInner (source : List Char) (span : Span) (children : List ParseTree) :
    Except Fault (List Char) :=
  let delimiters := children.filter (·.kind == "code_span_delimiter")
  let bare := do
    return dropEndWhile (· == '`') ((← slice source span).dropWhile (· == '`'))
  match delimiters.head?, delimiters.getLast? with
  | some first, some last =>
    if first.span.stop ≤ last.span.start then slice source ⟨first.span.stop, last.span.start⟩
    else bare
  | _, _ => bare

def fenceText (source : List Char) (block : ParseTree) : Except Fault (List Char) := do
  return withFinalBreak (← match block.child? "code_fence_content" with
    | some content => slice source content.span
    | none => .ok [])

def gap (source : List Char) (start stop : Nat) : Except Fault (List Outline) := do
  match ← if start < stop then slice source ⟨start, stop⟩ else .ok [] with
  | [] => return []
  | text => return [.leaf .text text]

mutual

def inlineOutline (limit : Nat) (source : List Char) : ParseTree → Except Fault (List Outline)
  | .node kind span children _ =>
    match InlineRole.ofKind kind with
    | .delimiter => return []
    | .code => do
      return [.leaf .codeSpan (withoutPadding (← codeSpanInner source span children))]
    | .emphasis => do
      return [.branch .emphasis (← inlineOutlines limit source span span.start children)]
    | .strong => do
      return [.branch .strong (← inlineOutlines limit source span span.start children)]
    | .link => do
      match ← labelOutlines limit source "link_text" children with
      | some outlines => return [.branch .link outlines]
      | none =>
        return [.branch .link ((← labelOutlines limit source "image_description" children).getD [])]
    | .autolink => do
      let target := (← slice source span).dropWhile (· == '<')
      return [.leaf .text (dropEndWhile (· == '>') target)]
    | .escape => do
      return [.leaf .text ((dropBytes? 1 (← slice source span)).getD [])]
    | .lineBreak => return [.leaf .lineBreak ['\n']]
    | .plain => do
      return [.leaf .text (← slice source span)]

def inlineOutlines (limit : Nat) (source : List Char) (span : Span) (done : Nat) :
    List ParseTree → Except Fault (List Outline)
  | [] => gap source done span.stop
  | node :: rest => do
    let start := max node.span.start span.start
    let stop := min node.span.stop span.stop
    if stop ≤ start then inlineOutlines limit source span done rest
    else
      return (← gap source done start) ++ (← inlineOutline limit source node) ++
        (← inlineOutlines limit source span (max done stop) rest)

def labelOutlines (limit : Nat) (source : List Char) (wanted : String) :
    List ParseTree → Except Fault (Option (List Outline))
  | [] => return none
  | .node kind span children _ :: rest => do
    if kind = wanted then
      let label ← trimmed limit source span
      return some (← inlineOutlines limit source label label.start children)
    else labelOutlines limit source wanted rest

end

def inlineContent (limit : Nat) (source : List Char) (node : ParseTree) :
    Except Fault (List Outline) := do
  let span ← trimmed limit source node.span
  inlineOutlines limit source span span.start node.inlines

def openSpan (limit : Nat) (source : List Char) (span : Span) : Except Fault Span := do
  let text ← slice source span
  let opened := dropEndWhile (· == '#') text
  if opened.length = text.length then return span
  else match opened.getLast? with
    | none => return ⟨span.start, span.start⟩
    | some c =>
      if c = ' ' ∨ c = '\t' then
        return ⟨span.start, ← add limit span.start (width (trimEnd opened))⟩
      else return span

def atxContent (limit : Nat) (source : List Char) (node : ParseTree) :
    Except Fault (List Outline) := do
  match node.child? "inline" with
  | some line =>
    let span ← openSpan limit source (← trimmed limit source line.span)
    inlineOutlines limit source span span.start line.inlines
  | none => return []

def setextContent (limit : Nat) (source : List Char) (node : ParseTree) :
    Except Fault (List Outline) :=
  match (node.child? "paragraph").bind (·.child? "inline") with
  | some line => inlineContent limit source line
  | none => return []

def paragraphContent (limit : Nat) (source : List Char) (node : ParseTree) :
    Except Fault (List Outline) := do
  return (← (node.children.filter (·.kind == "inline")).mapM (inlineContent limit source)).flatten

mutual

def blockOutlines (limit : Nat) (source : List Char) : ParseTree → Except Fault (List Outline)
  | .node kind span children inlines =>
    let node := ParseTree.node kind span children inlines
    match BlockRole.ofKind kind with
    | .section => blocksOutlines limit source children
    | .atxHeading => do
      return [.heading (atxLevel children) (← atxContent limit source node)]
    | .setextHeading => do
      return [.heading (setextLevel children) (← setextContent limit source node)]
    | .paragraph => do
      return [.branch .paragraph (← paragraphContent limit source node)]
    | .fencedCode => do
      return [.leaf .codeBlock (← fenceText source node)]
    | .indentedCode => do
      return [.leaf .codeBlock (← dedent (← slice source span))]
    | .list => do
      return [.branch .list (← blocksOutlines limit source children)]
    | .listItem => do
      return [.branch .listItem (← blocksOutlines limit source children)]
    | .quote => do
      return [.branch .blockQuote (← blocksOutlines limit source children)]
    | .thematicBreak => return [.branch .thematicBreak []]
    | .html => do
      return [.leaf .htmlBlock (← slice source span)]
    | .marker => return []
    | .other => do
      return [.leaf .other (← slice source (← trimmed limit source span))]

def blocksOutlines (limit : Nat) (source : List Char) :
    List ParseTree → Except Fault (List Outline)
  | [] => return []
  | node :: rest => do
    return (← blockOutlines limit source node) ++ (← blocksOutlines limit source rest)

end

def append (doc : Document) (parent : NodeId) (label : Label) : Except Fault Document := do
  let previous := (doc.get? parent).bind (·.lastChild)
  let added : Document := ⟨doc.nodes.push { label with parent := some parent, prev := previous }⟩
  let joined ← match previous with
    | some sibling =>
      if sibling < added.size then
        .ok (added.modify sibling fun node => { node with next := some doc.size })
      else .error .noNode
    | none => .ok added
  return joined.modify parent (·.adopt doc.size)

mutual

def appendOutline (doc : Document) (parent : NodeId) : Outline → Except Fault Document
  | .node label children => do appendOutlines (← append doc parent label) doc.size children

def appendOutlines (doc : Document) (parent : NodeId) : List Outline → Except Fault Document
  | [] => return doc
  | outline :: rest => do appendOutlines (← appendOutline doc parent outline) parent rest

end

def document (limit : Nat) (source : String) (tree : ParseTree) : Except Fault Document := do
  appendOutlines .empty Document.root (← blocksOutlines limit source.toList tree.children)

end Strict

namespace Markdown.ParseTree

mutual

def spans : ParseTree → List Span
  | node _ span children inlines => span :: (spansOf children ++ spansOf inlines)

def spansOf : List ParseTree → List Span
  | [] => []
  | tree :: rest => tree.spans ++ spansOf rest

end

/-- Whether the spans of a parse end at offsets up to a largest one. -/
def FitsIn (tree : ParseTree) (limit : Nat) : Prop := ∀ span ∈ tree.spans, span.FitsIn limit

instance (tree : ParseTree) (limit : Nat) : Decidable (tree.FitsIn limit) :=
  inferInstanceAs (Decidable (∀ span ∈ tree.spans, span.FitsIn limit))

theorem mem_spansOf {span : Span} {trees : List ParseTree} :
    span ∈ spansOf trees ↔ ∃ tree ∈ trees, span ∈ tree.spans := by
  induction trees with
  | nil => simp [spansOf]
  | cons tree rest ih => simp [spansOf, ih]

namespace FitsIn

variable {limit : Nat} {tree : ParseTree} (fits : tree.FitsIn limit)

include fits

theorem span : tree.span.FitsIn limit := by
  cases tree with
  | node kind span children inlines => exact fits span (by simp [spans])

theorem children : ∀ child ∈ tree.children, child.FitsIn limit := by
  cases tree with
  | node kind span children inlines =>
    intro child member inner found
    apply fits inner
    rw [spans, List.mem_cons, List.mem_append]
    exact .inr (.inl (mem_spansOf.mpr ⟨child, member, found⟩))

theorem inlines : ∀ inline ∈ tree.inlines, inline.FitsIn limit := by
  cases tree with
  | node kind span children inlines =>
    intro inline member inner found
    apply fits inner
    rw [spans, List.mem_cons, List.mem_append]
    exact .inr (.inr (mem_spansOf.mpr ⟨inline, member, found⟩))

theorem child? {kind : String} {child : ParseTree} (found : tree.child? kind = some child) :
    child.FitsIn limit :=
  fits.children child (List.mem_of_find?_eq_some found)

end FitsIn

end Markdown.ParseTree

namespace Strict

open Text Markdown

theorem mapM_eq {α β : Type} {f : α → Except Fault β} {g : α → β} {xs : List α}
    (each : ∀ x ∈ xs, f x = .ok (g x)) : xs.mapM f = .ok (xs.map g) := by
  induction xs with
  | nil => rfl
  | cons x xs ih =>
    rw [List.forall_mem_cons] at each
    rw [List.mapM_cons, each.1, ih each.2]
    rfl

theorem dropSpaces_eq (n : Nat) (line : List Char) :
    dropSpaces n line = .ok (Markdown.dropSpaces n line) := by
  induction n generalizing line with
  | zero =>
    cases line with
    | nil => rfl
    | cons c line => rfl
  | succ n ih =>
    cases line with
    | nil => rfl
    | cons c line =>
      by_cases space : c = ' '
      · subst space
        rw [Markdown.dropSpaces, ← ih line]
        rfl
      · have kept : Markdown.dropSpaces (n + 1) (c :: line) = c :: line := by
          rw [Markdown.dropSpaces]
          rintro _ _ - same
          exact space (List.cons.inj same).1
        rw [kept, dropSpaces, List.take_succ_cons,
          List.takeWhile_cons_of_neg (by simpa using space)]
        rfl

theorem dedent_eq (text : List Char) : dedent text = .ok (Markdown.dedent text) := by
  rw [dedent, mapM_eq fun line _ => dropSpaces_eq 4 line]
  rfl

variable (source : List Char)

theorem codeSpanInner_eq (span : Span) (children : List ParseTree) :
    codeSpanInner source span children = .ok (Markdown.codeSpanInner source span children) := by
  unfold codeSpanInner Markdown.codeSpanInner
  simp only [slice_eq]
  generalize children.filter (·.kind == "code_span_delimiter") = delimiters
  cases delimiters.head? with
  | none => rfl
  | some first =>
    cases delimiters.getLast? with
    | none => rfl
    | some last =>
      simp only
      split_ifs
      · rfl
      · rfl

theorem fenceText_eq (block : ParseTree) :
    fenceText source block = .ok (Markdown.fenceText source block) := by
  unfold fenceText Markdown.fenceText
  cases block.child? "code_fence_content" with
  | none => rfl
  | some content =>
    simp only [slice_eq]
    rfl

theorem gap_eq (start stop : Nat) :
    gap source start stop = .ok (Markdown.gap source start stop) := by
  unfold gap Markdown.gap
  rw [slice_eq]
  by_cases forward : start < stop
  · simp only [if_pos forward]
    cases Text.slice source ⟨start, stop⟩ with
    | nil => rfl
    | cons c text => rfl
  · simp only [if_neg forward]
    rfl

variable {limit : Nat}

theorem openSpan_eq {span : Span} (fits : span.FitsIn limit) :
    openSpan limit source span = .ok (Markdown.openSpan source span) := by
  have bound := start_add_width_slice_le source span fits
  have shorter : width (trimEnd (dropEndWhile (· == '#') (Text.slice source span))) ≤
      width (Text.slice source span) :=
    (width_trimEnd_le _).trans (width_le_of_begins (dropEndWhile_begins _ _))
  unfold openSpan Markdown.openSpan
  rw [slice_eq]
  simp only [bind, Except.bind]
  split_ifs
  · rfl
  · cases (dropEndWhile (· == '#') (Text.slice source span)).getLast? with
    | none => rfl
    | some c =>
      rw [add_eq (by omega)]
      simp only
      split_ifs
      · rfl
      · rfl

mutual

theorem inlineOutline_eq (tree : ParseTree) (fits : tree.FitsIn limit) :
    inlineOutline limit source tree = .ok (Markdown.inlineOutline source tree) := by
  cases tree with
  | node kind span children inlines =>
    have below := inlineOutlines_eq span span.start children fits.children
    rw [inlineOutline, Markdown.inlineOutline]
    cases InlineRole.ofKind kind with
    | delimiter => rfl
    | code =>
      simp only [codeSpanInner_eq]
      rfl
    | emphasis =>
      simp only [below]
      rfl
    | strong =>
      simp only [below]
      rfl
    | link =>
      simp only [labelOutlines_eq "link_text" children fits.children,
        labelOutlines_eq "image_description" children fits.children]
      cases labelOutlines? source "link_text" children with
      | none => rfl
      | some outlines => rfl
    | autolink =>
      simp only [slice_eq]
      rfl
    | escape =>
      simp only [slice_eq]
      rfl
    | lineBreak => rfl
    | plain =>
      simp only [slice_eq]
      rfl

theorem inlineOutlines_eq (span : Span) (done : Nat) (nodes : List ParseTree)
    (fits : ∀ node ∈ nodes, node.FitsIn limit) :
    inlineOutlines limit source span done nodes =
      .ok (Markdown.inlineOutlines source span done nodes) := by
  cases nodes with
  | nil =>
    rw [inlineOutlines, Markdown.inlineOutlines]
    exact gap_eq source done span.stop
  | cons node rest =>
    rw [List.forall_mem_cons] at fits
    rw [inlineOutlines, Markdown.inlineOutlines]
    split_ifs
    · exact inlineOutlines_eq span done rest fits.2
    · rw [gap_eq, inlineOutline_eq node fits.1, inlineOutlines_eq span _ rest fits.2]
      rfl

theorem labelOutlines_eq (wanted : String) (nodes : List ParseTree)
    (fits : ∀ node ∈ nodes, node.FitsIn limit) :
    labelOutlines limit source wanted nodes = .ok (labelOutlines? source wanted nodes) := by
  cases nodes with
  | nil => rfl
  | cons node rest =>
    rw [List.forall_mem_cons] at fits
    cases node with
    | node kind span children inlines =>
      have own : trimmed limit source span = .ok (Text.trimmed source span) :=
        trimmed_eq source fits.1.span
      rw [labelOutlines, labelOutlines?]
      split_ifs
      · simp only [own, bind, Except.bind, inlineOutlines_eq _ _ children fits.1.children]
        rfl
      · exact labelOutlines_eq wanted rest fits.2

end

variable {source}

theorem inlineContent_eq {node : ParseTree} (fits : node.FitsIn limit) :
    inlineContent limit source node = .ok (Markdown.inlineContent source node) := by
  rw [inlineContent, trimmed_eq source fits.span]
  exact inlineOutlines_eq source _ _ node.inlines fits.inlines

theorem atxContent_eq {node : ParseTree} (fits : node.FitsIn limit) :
    atxContent limit source node = .ok (Markdown.atxContent source node) := by
  unfold atxContent Markdown.atxContent
  cases found : node.child? "inline" with
  | none => rfl
  | some line =>
    have inner := fits.child? found
    simp only [trimmed_eq source inner.span, bind, Except.bind,
      openSpan_eq source (fitsIn_trimmed source inner.span)]
    exact inlineOutlines_eq source _ _ line.inlines inner.inlines

theorem setextContent_eq {node : ParseTree} (fits : node.FitsIn limit) :
    setextContent limit source node = .ok (Markdown.setextContent source node) := by
  unfold setextContent Markdown.setextContent
  cases found : (node.child? "paragraph").bind (·.child? "inline") with
  | none => rfl
  | some line =>
    obtain ⟨paragraph, above, inner⟩ := Option.bind_eq_some_iff.mp found
    exact inlineContent_eq ((fits.child? above).child? inner)

theorem paragraphContent_eq {node : ParseTree} (fits : node.FitsIn limit) :
    paragraphContent limit source node = .ok (Markdown.paragraphContent source node) := by
  rw [paragraphContent, Markdown.paragraphContent, List.flatMap_def, mapM_eq]
  · rfl
  · intro line member
    exact inlineContent_eq (fits.children line (List.mem_of_mem_filter member))

mutual

theorem blockOutlines_eq (tree : ParseTree) (fits : tree.FitsIn limit) :
    blockOutlines limit source tree = .ok (Markdown.blockOutlines source tree) := by
  cases tree with
  | node kind span children inlines =>
    have own : trimmed limit source span = .ok (Text.trimmed source span) :=
      trimmed_eq source fits.span
    have below := blocksOutlines_eq children fits.children
    rw [blockOutlines, Markdown.blockOutlines]
    cases BlockRole.ofKind kind with
    | «section» => exact below
    | atxHeading =>
      simp only [atxContent_eq fits]
      rfl
    | setextHeading =>
      simp only [setextContent_eq fits]
      rfl
    | paragraph =>
      simp only [paragraphContent_eq fits]
      rfl
    | fencedCode =>
      simp only [fenceText_eq]
      rfl
    | indentedCode =>
      simp only [slice_eq, bind, Except.bind, dedent_eq]
      rfl
    | list | listItem | quote =>
      simp only [below]
      rfl
    | thematicBreak | marker => rfl
    | html =>
      simp only [slice_eq]
      rfl
    | other =>
      simp only [own, bind, Except.bind, slice_eq]
      rfl

theorem blocksOutlines_eq (trees : List ParseTree) (fits : ∀ tree ∈ trees, tree.FitsIn limit) :
    blocksOutlines limit source trees = .ok (Markdown.blocksOutlines source trees) := by
  cases trees with
  | nil => rfl
  | cons tree rest =>
    rw [List.forall_mem_cons] at fits
    rw [blocksOutlines, Markdown.blocksOutlines, blockOutlines_eq tree fits.1,
      blocksOutlines_eq rest fits.2]
    rfl

end

section Documents

open Document

theorem append_eq {doc : Document} (grown : Grown doc) (parent : NodeId) (label : Label) :
    append doc parent label = .ok (doc.append parent label) := by
  unfold append Document.append
  cases last : (doc.get? parent).bind (·.lastChild) with
  | none => rfl
  | some sibling =>
    have inside : sibling < doc.size := (grown.lastChild_spec parent sibling last).1
    have present : sibling < doc.nodes.size + 1 := Nat.lt_succ_of_lt inside
    simp only [size, Array.size_push, if_pos present]
    rfl

mutual

theorem appendOutline_eq {doc : Document} (grown : Grown doc) (parent : Nat) (outline : Outline) :
    appendOutline doc parent outline = .ok (doc.appendOutline parent outline) := by
  cases outline with
  | node label children =>
    have fresh : doc.size < (doc.append parent label).size := by
      rw [size_append]
      omega
    rw [appendOutline, append_eq grown]
    exact appendOutlines_eq (.append grown parent label) fresh children

theorem appendOutlines_eq {doc : Document} (grown : Grown doc) {parent : Nat}
    (inside : parent < doc.size) (outlines : List Outline) :
    appendOutlines doc parent outlines = .ok (doc.appendOutlines parent outlines) := by
  cases outlines with
  | nil => rfl
  | cons outline rest =>
    have first := (appendOutline_spec grown inside outline).1
    rw [appendOutlines, appendOutline_eq grown parent outline]
    exact appendOutlines_eq first.grown (Nat.lt_of_lt_of_le inside first.size_le) rest

end

theorem document_eq (text : String) {tree : ParseTree} (fits : tree.FitsIn limit) :
    document limit text tree = .ok (Markdown.document text tree) := by
  rw [document, blocksOutlines_eq tree.children fits.children, Markdown.document_eq_ofOutlines]
  exact appendOutlines_eq .empty (by decide) _

end Documents

end Strict

namespace Markdown

open Text

/--
No step of reading a source and its parse into a document faults, wherever the spans of the parse
end and whatever text the source is. Moreover a span of a part of the source is trimmed to the span
of the part without the white space at its two ends, and opened to the span of a part that begins
where it does.
-/
theorem reading_never_faults (limit : Nat) (text : String) (tree : ParseTree)
    (fits : tree.FitsIn limit) :
    Strict.document limit text tree = .ok (document text tree) ∧
    ∀ (span : Span) (inner : List Char), slice? text.toList span = some inner →
      (∃ lead core trail, inner = lead ++ core ++ trail ∧ isAllBlank lead ∧ isAllBlank trail ∧
        isStripped core ∧
        trimmed text.toList span = ⟨span.start + width lead, span.start + width lead + width core⟩ ∧
        (trimmed text.toList span).stop ≤ span.stop ∧
        slice? text.toList (trimmed text.toList span) = some core) ∧
      ∃ front rest, inner = front ++ rest ∧
        openSpan text.toList span = ⟨span.start, span.start + width front⟩ ∧
        (openSpan text.toList span).stop ≤ span.stop ∧
        slice? text.toList (openSpan text.toList span) = some front := by
  refine ⟨Strict.document_eq text fits, ?_⟩
  intro span inner sliced
  have stop := stop_of_slice? sliced
  constructor
  · refine ⟨inner.takeWhile isBlank, trimEnd (trimStart inner), endRun isBlank (trimStart inner),
      (trim_parts inner).symm, List.all_takeWhile, List.all_eq_true.mpr (forall_mem_endRun _ _),
      isStripped_trim inner, trimmed_eq sliced, ?_, slice?_trimmed sliced⟩
    have parts := congrArg width (trim_parts inner)
    rw [width_append, width_append] at parts
    rw [trimmed_eq sliced, stop]
    simp only
    omega
  · obtain ⟨rest, same⟩ := openText_begins inner
    have opened := openSpan_eq sliced
    refine ⟨openText inner, rest, same.symm, opened, ?_, ?_⟩
    · rw [opened, stop]
      exact Nat.add_le_add_left (width_le_of_begins (openText_begins inner)) _
    · rw [opened]
      exact (slice?_split (same ▸ sliced)).1

def wideHeading : String := "#\u3000é\u2003 #\n"

/-- A parse of it with spans that run backwards, past the end and into characters, one of them from
the largest offset of 64 bits. -/
def crooked : ParseTree :=
  .node "document" ⟨0, 12⟩
    [.node "atx_heading" ⟨0, 12⟩ [.node "inline" ⟨1, 11⟩ [] [.node "emphasis" ⟨5, 2⟩ [] []]] [],
      .node "paragraph" ⟨9, 40⟩ [.node "inline" ⟨2, 40⟩ [] [.node "code_span" ⟨3, 30⟩ [] []]] [],
      .node "pipe_table" ⟨18446744073709551615, 3⟩ [] []] []

theorem reading_never_faults_crooked :
    crooked.FitsIn 18446744073709551615 ∧
    Strict.document 18446744073709551615 wideHeading crooked = .ok (document wideHeading crooked) ∧
    slice? wideHeading.toList ⟨1, 11⟩ = some "\u3000é\u2003 #".toList ∧
    ∃ lead core trail, "\u3000é\u2003 #".toList = lead ++ core ++ trail ∧ isStripped core ∧
      slice? wideHeading.toList (trimmed wideHeading.toList ⟨1, 11⟩) = some core := by
  have fits : crooked.FitsIn 18446744073709551615 := by decide
  have cut : slice? wideHeading.toList ⟨1, 11⟩ = some "\u3000é\u2003 #".toList := by decide
  obtain ⟨read, spans⟩ := reading_never_faults _ wideHeading crooked fits
  obtain ⟨⟨lead, core, trail, parts, -, -, stripped, -, -, kept⟩, -⟩ := spans ⟨1, 11⟩ _ cut
  exact ⟨fits, read, cut, lead, core, trail, parts, stripped, kept⟩

end Markdown

end Tangle
