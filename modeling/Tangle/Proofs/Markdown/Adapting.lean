import Tangle.Markdown.Adapter
import Tangle.Proofs.Document.Building

/-!
The document of a Markdown text holds the outline of its parse. Adding the nodes one by one, each
below the position of the one it stands in, comes to adding the outline as a whole
(`document_eq_ofOutlines`).
-/

namespace Tangle

open Document

theorem Document.appendOutlines_append (doc : Document) (parent : NodeId)
    (first second : List Outline) :
    doc.appendOutlines parent (first ++ second) =
      (doc.appendOutlines parent first).appendOutlines parent second := by
  induction first generalizing doc with
  | nil => rfl
  | cons outline rest ih =>
    rw [List.cons_append, appendOutlines, ih, appendOutlines]

theorem Document.appendOutlines_branch (doc : Document) (parent : NodeId) (label : Label)
    (children : List Outline) :
    doc.appendOutlines parent [.node label children] =
      (doc.append parent label).appendOutlines doc.size children :=
  rfl

namespace Markdown

variable {source : List Char}

theorem pushText_eq_appendOutlines (doc : Document) (parent : NodeId) (start stop : Nat) :
    (if start < stop then pushText source doc parent start stop else doc) =
      doc.appendOutlines parent (gap source start stop) := by
  rw [gap]
  split_ifs with ordered
  · rw [pushText]
    cases Text.slice source ⟨start, stop⟩ with
    | nil => rfl
    | cons c rest => rfl
  · rfl

mutual

theorem pushInline_eq_appendOutlines (doc : Document) (parent : NodeId) (tree : ParseTree) :
    pushInline source doc parent tree = doc.appendOutlines parent (inlineOutline source tree) := by
  cases tree with
  | node kind span children inlines =>
    have below := fun label =>
      pushInlines_eq_appendOutlines (doc.append parent label) doc.size span span.start children
    have labelled := fun wanted =>
      pushLabel?_eq_appendOutlines (doc.append parent { kind := .link }) doc.size wanted children
    rw [pushInline, inlineOutline]
    cases InlineRole.ofKind kind with
    | delimiter => rfl
    | code => rfl
    | emphasis => exact below _
    | strong => exact below _
    | link =>
      simp only [labelled]
      cases labelOutlines? source "link_text" children with
      | some outlines => rfl
      | none => cases labelOutlines? source "image_description" children <;> rfl
    | autolink => rfl
    | escape => rfl
    | lineBreak => rfl
    | plain => rfl

theorem pushInlines_eq_appendOutlines (doc : Document) (parent : NodeId) (span : Span)
    (done : Nat) (nodes : List ParseTree) :
    pushInlines source doc parent span done nodes =
      doc.appendOutlines parent (inlineOutlines source span done nodes) := by
  cases nodes with
  | nil =>
    rw [pushInlines, inlineOutlines]
    exact pushText_eq_appendOutlines doc parent done span.stop
  | cons node rest =>
    rw [pushInlines, inlineOutlines]
    simp only [pushText_eq_appendOutlines]
    by_cases empty : min node.span.stop span.stop ≤ max node.span.start span.start
    · rw [if_pos empty, if_pos empty]
      exact pushInlines_eq_appendOutlines doc parent span done rest
    · rw [if_neg empty, if_neg empty, pushInline_eq_appendOutlines,
        pushInlines_eq_appendOutlines _ parent span _ rest, appendOutlines_append,
        appendOutlines_append]

theorem pushLabel?_eq_appendOutlines (doc : Document) (parent : NodeId) (wanted : String)
    (nodes : List ParseTree) :
    pushLabel? source doc parent wanted nodes =
      (labelOutlines? source wanted nodes).map (doc.appendOutlines parent) := by
  cases nodes with
  | nil => rfl
  | cons node rest =>
    cases node with
    | node kind span children inlines =>
      rw [pushLabel?, labelOutlines?]
      split_ifs with fits
      · simp only [pushInlines_eq_appendOutlines, Option.map_some]
      · exact pushLabel?_eq_appendOutlines doc parent wanted rest

end

theorem pushContent_eq_appendOutlines (doc : Document) (parent : NodeId) (node : ParseTree) :
    pushContent source doc parent node = doc.appendOutlines parent (inlineContent source node) :=
  pushInlines_eq_appendOutlines doc parent _ _ _

theorem foldl_pushContent (doc : Document) (parent : NodeId) (nodes : List ParseTree) :
    nodes.foldl (fun added line => pushContent source added parent line) doc =
      doc.appendOutlines parent (nodes.flatMap (inlineContent source)) := by
  induction nodes generalizing doc with
  | nil => rfl
  | cons node rest ih =>
    rw [List.foldl_cons, ih, pushContent_eq_appendOutlines, List.flatMap_cons,
      appendOutlines_append]

mutual

theorem pushBlock_eq_appendOutlines (doc : Document) (parent : NodeId) (tree : ParseTree) :
    pushBlock source doc parent tree = doc.appendOutlines parent (blockOutlines source tree) := by
  cases tree with
  | node kind span children inlines =>
    have below := fun label =>
      pushBlocks_eq_appendOutlines (doc.append parent label) doc.size children
    rw [pushBlock, blockOutlines]
    cases BlockRole.ofKind kind with
    | «section» => exact pushBlocks_eq_appendOutlines doc parent children
    | atxHeading =>
      simp only [Outline.heading, appendOutlines_branch, atxContent]
      cases ParseTree.child? (.node kind span children inlines) "inline" with
      | none => rfl
      | some line => exact pushInlines_eq_appendOutlines _ _ _ _ _
    | setextHeading =>
      simp only [Outline.heading, appendOutlines_branch, setextContent]
      cases (ParseTree.child? (.node kind span children inlines) "paragraph").bind
          (·.child? "inline") with
      | none => rfl
      | some line => exact pushContent_eq_appendOutlines _ _ _
    | paragraph => exact foldl_pushContent _ _ _
    | fencedCode => rfl
    | indentedCode => rfl
    | list => exact below _
    | listItem => exact below _
    | quote => exact below _
    | thematicBreak => rfl
    | html => rfl
    | marker => rfl
    | other => rfl

theorem pushBlocks_eq_appendOutlines (doc : Document) (parent : NodeId)
    (nodes : List ParseTree) :
    pushBlocks source doc parent nodes =
      doc.appendOutlines parent (blocksOutlines source nodes) := by
  cases nodes with
  | nil => rfl
  | cons node rest =>
    rw [pushBlocks, blocksOutlines, pushBlock_eq_appendOutlines,
      pushBlocks_eq_appendOutlines _ parent rest, appendOutlines_append]

end

/-- The nodes of a document are those of the outline of its parse, in preorder. -/
theorem document_eq_ofOutlines (text : String) (tree : ParseTree) :
    document text tree = .ofOutlines (blocksOutlines text.toList tree.children) :=
  pushBlocks_eq_appendOutlines .empty Document.root tree.children

theorem built_document (text : String) (tree : ParseTree) : (document text tree).Built := by
  rw [document_eq_ofOutlines]
  exact built_ofOutlines _

end Markdown

end Tangle
