import Tangle.Proofs.Markdown.Coverage

/-!
Code in blocks. A document has the code of every fenced and every indented block of the parse, in
order and at whatever depth the block stands. The lines of a block that stands in a quote or in an
item of a list begin with marks and spaces of what the block stands in. The parse tells these apart
as nodes of their own, the continuations, but the code of a fenced block is the text of its content
as it stands. So it is free of them only where they cover nothing that would be missed.
-/

namespace Tangle

def Label.code? (label : Label) : Option (List Char) :=
  if label.kind = .codeBlock then label.literal.map String.toList else none

theorem Kind.holdsInlines_or_isLeaf {kind : Kind} (inline : kind.isInline) :
    kind.holdsInlines ∨ kind.isLeaf := by
  cases kind <;> revert inline <;> decide

namespace Outline

mutual

def labels : Outline → List Label
  | node label children => label :: labelsOf children

def labelsOf : List Outline → List Label
  | [] => []
  | outline :: rest => outline.labels ++ labelsOf rest

end

theorem labelsOf_append (outlines more : List Outline) :
    labelsOf (outlines ++ more) = labelsOf outlines ++ labelsOf more := by
  induction outlines with
  | nil => rw [labelsOf, List.nil_append, List.nil_append]
  | cons outline rest ih => rw [List.cons_append, labelsOf, labelsOf, ih, List.append_assoc]

theorem mem_labelsOf {label : Label} {outlines : List Outline} :
    label ∈ labelsOf outlines ↔ ∃ outline ∈ outlines, label ∈ outline.labels := by
  induction outlines with
  | nil => simp [labelsOf]
  | cons outline rest ih => simp [labelsOf, ih]

def codesOf (outlines : List Outline) : List (List Char) :=
  (labelsOf outlines).filterMap Label.code?

@[simp] theorem codesOf_nil : codesOf [] = [] := by
  rw [codesOf, labelsOf, List.filterMap_nil]

@[simp] theorem codesOf_append (outlines more : List Outline) :
    codesOf (outlines ++ more) = codesOf outlines ++ codesOf more := by
  rw [codesOf, labelsOf_append, List.filterMap_append]
  rfl

theorem codesOf_singleton (label : Label) (children : List Outline) :
    codesOf [node label children] = label.code?.toList ++ codesOf children := by
  rw [codesOf, labelsOf, labelsOf, List.append_nil, labels, List.filterMap_cons]
  cases label.code? with
  | none => rfl
  | some code => rfl

theorem codesOf_code (code : List Char) : codesOf [leaf .codeBlock code] = [code] := by
  rw [leaf, codesOf_singleton, codesOf_nil, Label.code?, if_pos rfl, Option.map_some,
    String.toList_ofList]
  rfl

theorem codesOf_of_ne {label : Label} (other : label.kind ≠ .codeBlock) (children : List Outline) :
    codesOf [node label children] = codesOf children := by
  rw [codesOf_singleton, Label.code?, if_neg other]
  rfl

theorem Conforms.isInline_labels {levels : Nat → Prop} {outline : Outline}
    (conforms : outline.Conforms levels) (own : outline.kind.isInline) :
    ∀ label ∈ outline.labels, label.kind.isInline := by
  induction conforms with
  | @node label children fits below ih =>
    have kinds : ∀ inner ∈ children.map kind, inner.isInline := by
      rcases Kind.holdsInlines_or_isLeaf own with holds | leaf
      · exact fits.inlines holds
      · rw [fits.childless leaf]
        simp
    rw [labels, List.forall_mem_cons]
    refine ⟨own, ?_⟩
    intro inner member
    obtain ⟨child, present, found⟩ := mem_labelsOf.mp member
    exact ih child present (kinds _ (List.mem_map_of_mem present)) inner found

theorem codesOf_inlines {outlines : List Outline}
    (fitting : Fitting Kind.isInline (fun _ => True) outlines) : codesOf outlines = [] := by
  rw [codesOf, List.filterMap_eq_nil_iff]
  intro label member
  obtain ⟨outline, present, found⟩ := mem_labelsOf.mp member
  have inline := (fitting outline present).2.isInline_labels (fitting outline present).1 label found
  apply if_neg
  intro code
  rw [code] at inline
  cases inline

end Outline

namespace Document

def labels (doc : Document) : List Label := doc.nodes.toList.map Node.toLabel

def codes (doc : Document) : List (List Char) := doc.labels.filterMap Label.code?

theorem labels_modify (doc : Document) (id : NodeId) {f : Node → Node}
    (same : ∀ node, (f node).toLabel = node.toLabel) : (doc.modify id f).labels = doc.labels := by
  apply List.ext_getElem?
  intro position
  rw [labels, labels, modify, List.getElem?_map, List.getElem?_map, Array.getElem?_toList,
    Array.getElem?_toList, Array.getElem?_modify]
  split_ifs
  · rw [Option.map_map]
    exact congrArg (Option.map · _) (funext same)
  · rfl

theorem labels_append (doc : Document) (parent : NodeId) (label : Label) :
    (doc.append parent label).labels = doc.labels ++ [label] := by
  have adopted : ∀ node : Node, (node.adopt doc.size).toLabel = node.toLabel := fun _ => rfl
  have joined : ∀ node : Node, { node with next := some doc.size }.toLabel = node.toLabel :=
    fun _ => rfl
  simp only [append]
  rw [labels_modify _ _ adopted]
  cases (doc.get? parent).bind (·.lastChild) with
  | none => simp [labels]
  | some sibling =>
    simp only
    rw [labels_modify _ _ joined]
    simp [labels]

mutual

theorem labels_appendOutline (doc : Document) (parent : NodeId) (outline : Outline) :
    (doc.appendOutline parent outline).labels = doc.labels ++ outline.labels := by
  cases outline with
  | node label children =>
    rw [appendOutline, labels_appendOutlines, labels_append, List.append_assoc, Outline.labels]
    rfl

theorem labels_appendOutlines (doc : Document) (parent : NodeId) (outlines : List Outline) :
    (doc.appendOutlines parent outlines).labels = doc.labels ++ Outline.labelsOf outlines := by
  cases outlines with
  | nil => rw [appendOutlines, Outline.labelsOf, List.append_nil]
  | cons outline rest =>
    rw [appendOutlines, labels_appendOutlines, labels_appendOutline, Outline.labelsOf,
      List.append_assoc]

end

theorem codes_ofOutlines (outlines : List Outline) :
    (ofOutlines outlines).codes = Outline.codesOf outlines := by
  rw [codes, ofOutlines, labels_appendOutlines, List.filterMap_append]
  rfl

end Document

namespace Markdown

open Text

mutual

/-- The blocks of code of a parse in order, at any depth of sections, lists and quotes. -/
def codeBlocks : ParseTree → List ParseTree
  | .node kind span children inlines =>
    match BlockRole.ofKind kind with
    | .fencedCode | .indentedCode => [.node kind span children inlines]
    | .section | .list | .listItem | .quote => codeBlocksOf children
    | _ => []

def codeBlocksOf : List ParseTree → List ParseTree
  | [] => []
  | tree :: rest => codeBlocks tree ++ codeBlocksOf rest

end

def isFenced (block : ParseTree) : Bool := BlockRole.ofKind block.kind = .fencedCode

def codeOf (source : List Char) (block : ParseTree) : List Char :=
  if isFenced block then fenceText source block else dedent (slice source block.span)

mutual

theorem codesOf_blockOutlines (source : List Char) (tree : ParseTree) :
    Outline.codesOf (blockOutlines source tree) = (codeBlocks tree).map (codeOf source) := by
  cases tree with
  | node kind span children inlines =>
    have below := codesOf_blocksOutlines source children
    rw [blockOutlines, codeBlocks]
    cases role : BlockRole.ofKind kind with
    | «section» => exact below
    | list | listItem | quote =>
      rw [← below]
      exact Outline.codesOf_of_ne (by decide) _
    | fencedCode =>
      have fenced : isFenced (.node kind span children inlines) := decide_eq_true role
      rw [Outline.codesOf_code, List.map_singleton, codeOf, if_pos fenced]
    | indentedCode =>
      have other : ¬isFenced (.node kind span children inlines) := by
        rw [isFenced, ParseTree.kind, role]
        decide
      rw [Outline.codesOf_code, List.map_singleton, codeOf, if_neg other]
      rfl
    | atxHeading =>
      exact (Outline.codesOf_of_ne (by simp) _).trans
        (Outline.codesOf_inlines (fitting_atxContent source _))
    | setextHeading =>
      exact (Outline.codesOf_of_ne (by simp) _).trans
        (Outline.codesOf_inlines (fitting_setextContent source _))
    | paragraph =>
      exact (Outline.codesOf_of_ne (by simp) _).trans
        (Outline.codesOf_inlines (fitting_paragraphContent source _))
    | thematicBreak | html | other =>
      exact (Outline.codesOf_of_ne (by simp) _).trans Outline.codesOf_nil
    | marker => exact Outline.codesOf_nil

theorem codesOf_blocksOutlines (source : List Char) (trees : List ParseTree) :
    Outline.codesOf (blocksOutlines source trees) = (codeBlocksOf trees).map (codeOf source) := by
  cases trees with
  | nil => rw [blocksOutlines, codeBlocksOf, Outline.codesOf_nil, List.map_nil]
  | cons tree rest =>
    rw [blocksOutlines, codeBlocksOf, Outline.codesOf_append, List.map_append,
      codesOf_blockOutlines source tree, codesOf_blocksOutlines source rest]

end

theorem codes_document (text : String) (tree : ParseTree) :
    (document text tree).codes = (codeBlocksOf tree.children).map (codeOf text.toList) := by
  rw [document_eq_ofOutlines, Document.codes_ofOutlines, codesOf_blocksOutlines]

end Markdown

namespace Text

/-- What is left of a text that starts at an offset without the characters that begin in places
which are taken out. -/
def outside (taken : Nat → Bool) : Nat → List Char → List Char
  | _, [] => []
  | offset, c :: cs =>
    if taken offset then outside taken (offset + c.utf8Size) cs
    else c :: outside taken (offset + c.utf8Size) cs

variable (taken : Nat → Bool)

theorem outside_sublist (offset : Nat) (cs : List Char) : (outside taken offset cs).Sublist cs := by
  induction cs generalizing offset with
  | nil => exact .slnil
  | cons c cs ih =>
    rw [outside]
    split_ifs
    · exact (ih _).cons c
    · exact (ih _).cons_cons c

theorem outside_append (offset : Nat) (cs ds : List Char) :
    outside taken offset (cs ++ ds) =
      outside taken offset cs ++ outside taken (offset + width cs) ds := by
  induction cs generalizing offset with
  | nil => simp [outside, width]
  | cons c cs ih =>
    rw [List.cons_append, outside, outside, ih, width, Nat.add_assoc]
    split_ifs
    · rfl
    · rfl

variable {taken} {offset : Nat}

section Taken

variable {before after : List Char} {c : Char} (gone : taken (offset + width before))

include gone

theorem outside_of_taken : outside taken offset (before ++ c :: after) =
    outside taken offset before ++ outside taken (offset + width before + c.utf8Size) after := by
  rw [outside_append, outside, if_pos gone]

theorem length_outside_lt :
    (outside taken offset (before ++ c :: after)).length < (before ++ c :: after).length := by
  have front := (outside_sublist taken offset before).length_le
  have back := (outside_sublist taken (offset + width before + c.utf8Size) after).length_le
  rw [outside_of_taken gone, List.length_append, List.length_append, List.length_cons]
  omega

theorem outside_eq_of_length (one : (before ++ c :: after).length =
    (outside taken offset (before ++ c :: after)).length + 1) :
    outside taken offset (before ++ c :: after) = before ++ after := by
  have front := outside_sublist taken offset before
  have back := outside_sublist taken (offset + width before + c.utf8Size) after
  rw [outside_of_taken gone, List.length_append, List.length_append, List.length_cons] at one
  have first := front.length_le
  have second := back.length_le
  rw [outside_of_taken gone, front.eq_of_length (by omega), back.eq_of_length (by omega)]

end Taken

theorem outside_eq_self {cs : List Char}
    (kept : ∀ before c after, cs = before ++ c :: after → ¬taken (offset + width before)) :
    outside taken offset cs = cs := by
  induction cs generalizing offset with
  | nil => rfl
  | cons c cs ih =>
    have first : ¬taken offset := kept [] c cs rfl
    rw [outside, if_neg first, ih]
    intro before d after same
    have later := kept (c :: before) d after (by rw [same, List.cons_append])
    rwa [width, ← Nat.add_assoc] at later

end Text

namespace Markdown

open Text

theorem withFinalBreak_of_open {text : List Char} (present : text ≠ [])
    (last : text.getLast? ≠ some '\n') : withFinalBreak text = text ++ ['\n'] :=
  if_neg (not_or.mpr ⟨present, last⟩)

theorem withFinalBreak_concat (text : List Char) :
    withFinalBreak (text ++ ['\n']) = text ++ ['\n'] :=
  if_pos (.inr List.getLast?_concat)

theorem eq_concat_of_withFinalBreak {part text : List Char} (shorter : part.length < text.length)
    (same : withFinalBreak text = withFinalBreak part) :
    text = part ++ ['\n'] ∧ part ≠ [] ∧ part.getLast? ≠ some '\n' := by
  unfold withFinalBreak at same
  split_ifs at same with whole closed closed
  · rw [same] at shorter
    omega
  · rw [not_or] at closed
    exact ⟨same, closed⟩
  · have lengths := congrArg List.length same
    rw [List.length_append] at lengths
    omega
  · rw [List.append_cancel_right same] at shorter
    omega

theorem eq_nil_of_concat {before after : List Char} {c d : Char}
    (same : before ++ c :: after = before ++ after ++ [d])
    (last : (before ++ after).getLast? ≠ some d) : after = [] ∧ c = d := by
  rw [List.append_assoc] at same
  have ends := List.append_cancel_left same
  cases after with
  | nil => exact ⟨rfl, (List.cons.inj ends).1⟩
  | cons e after =>
    have final := congrArg List.getLast? ends
    rw [List.getLast?_cons_cons, List.getLast?_concat] at final
    rw [List.getLast?_append, final, Option.some_or] at last
    exact absurd rfl last

/-- Taking characters out of a text goes unnoticed after completion exactly if all that is taken out
is the line break at the end of a last line that is not empty. -/
theorem withFinalBreak_outside {taken : Nat → Bool} {offset : Nat} {text : List Char} :
    withFinalBreak text = withFinalBreak (outside taken offset text) ↔
      ∀ before c after, text = before ++ c :: after → taken (offset + width before) →
        after = [] ∧ c = '\n' ∧ before ≠ [] ∧ before.getLast? ≠ some '\n' := by
  constructor
  · rintro same before c after rfl gone
    obtain ⟨whole, present, last⟩ := eq_concat_of_withFinalBreak (length_outside_lt gone) same
    have kept := outside_eq_of_length gone
      (by rw [congrArg List.length whole, List.length_append, List.length_singleton])
    rw [kept] at whole present last
    obtain ⟨rfl, rfl⟩ := eq_nil_of_concat whole last
    rw [List.append_nil] at present last
    exact ⟨rfl, rfl, present, last⟩
  · intro only
    by_cases found : ∃ before c after, text = before ++ c :: after ∧ taken (offset + width before)
    · obtain ⟨before, c, after, parts, gone⟩ := found
      obtain ⟨rfl, rfl, present, last⟩ := only before c after parts gone
      have front : outside taken offset before = before := by
        apply outside_eq_self
        intro start d rest same again
        have alone := (only start d (rest ++ ['\n'])
          (by rw [parts, same, List.append_assoc, List.cons_append]) again).1
        simp at alone
      rw [parts, outside_append, front, outside, if_pos gone, outside, List.append_nil,
        withFinalBreak_concat, withFinalBreak_of_open present last]
    · rw [outside_eq_self]
      intro before c after parts gone
      exact found ⟨before, c, after, parts, gone⟩

instance (span : Span) (offset : Nat) : Decidable (span.Has offset) :=
  inferInstanceAs (Decidable (_ ∧ _))

def isContinuation (node : ParseTree) (offset : Nat) : Bool :=
  (ParseTree.partsOf node.children).any fun part =>
    part.kind == "block_continuation" && decide (part.span.Has offset)

def withoutContinuations (source : List Char) (node : ParseTree) : List Char :=
  outside (isContinuation node) node.span.start (slice source node.span)

/--
The code of a document is that of the blocks of code of the parse, one by one. The code of a fenced
block is the text of its content, continuations included, ended with a line break. It is what is
left without them exactly if of the text of the content they cover nothing or no more than the line
break that ends its last line, where that line is not empty.
-/
theorem code_keeps_continuations (text : String) (tree : ParseTree) :
    (document text tree).codes = (codeBlocksOf tree.children).map (codeOf text.toList) ∧
    ∀ block ∈ codeBlocksOf tree.children, isFenced block →
      (block.child? "code_fence_content" = none → codeOf text.toList block = []) ∧
      ∀ content ∈ block.child? "code_fence_content",
        codeOf text.toList block = withFinalBreak (slice text.toList content.span) ∧
        (codeOf text.toList block = withFinalBreak (withoutContinuations text.toList content) ↔
          ∀ before c after, slice text.toList content.span = before ++ c :: after →
            isContinuation content (content.span.start + width before) →
            after = [] ∧ c = '\n' ∧ before ≠ [] ∧ before.getLast? ≠ some '\n') := by
  refine ⟨codes_document text tree, ?_⟩
  intro block _ fenced
  rw [codeOf, if_pos fenced, fenceText]
  constructor
  · intro nothing
    rw [nothing]
    rfl
  · intro content found
    rw [Option.mem_def.mp found]
    exact ⟨rfl, withFinalBreak_outside⟩

def quotedText : String := "> # main.go\n>\n> ```\n> a\n> b\n> ```\n"

def quotedContent : ParseTree :=
  .node "code_fence_content" ⟨22, 30⟩
    [.node "block_continuation" ⟨24, 26⟩ [] [], .node "block_continuation" ⟨28, 30⟩ [] []] []

def quotedFence : ParseTree :=
  .node "fenced_code_block" ⟨16, 34⟩
    [.node "fenced_code_block_delimiter" ⟨16, 19⟩ [] [], .node "block_continuation" ⟨20, 22⟩ [] [],
      quotedContent, .node "fenced_code_block_delimiter" ⟨30, 33⟩ [] []] []

def quoted : ParseTree :=
  .node "document" ⟨0, 34⟩ [.node "section" ⟨0, 34⟩ [.node "block_quote" ⟨0, 34⟩
    [.node "block_quote_marker" ⟨0, 2⟩ [] [],
      .node "section" ⟨2, 34⟩
        [.node "atx_heading" ⟨2, 13⟩
          [.node "atx_h1_marker" ⟨2, 3⟩ [] [], .node "inline" ⟨4, 11⟩ [] [],
            .node "block_continuation" ⟨12, 13⟩ [] []] [],
          .node "block_continuation" ⟨14, 16⟩ [] [], quotedFence] []] []] []] []

theorem code_keeps_continuations_quoted :
    quotedFence ∈ codeBlocksOf quoted.children ∧ isFenced quotedFence ∧
    quotedContent ∈ quotedFence.child? "code_fence_content" ∧
    codeOf quotedText.toList quotedFence = "a\n> b\n> \n".toList := by
  have member : quotedFence ∈ codeBlocksOf quoted.children := List.mem_singleton.mpr rfl
  have content : quotedContent ∈ quotedFence.child? "code_fence_content" := rfl
  have kept := ((code_keeps_continuations quotedText quoted).2 quotedFence member rfl).2
    quotedContent content
  exact ⟨member, rfl, content, kept.1.trans (by decide)⟩

/-- The marks of the quote stay in the code, where the lines alone are what is left without them. -/
theorem marks_in_code_of_quoted :
    (document quotedText quoted).codes = ["a\n> b\n> \n".toList] ∧
    withFinalBreak (withoutContinuations quotedText.toList quotedContent) = "a\nb\n".toList := by
  decide

end Markdown

end Tangle
