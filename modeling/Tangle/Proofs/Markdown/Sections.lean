import Tangle.Proofs.Document.Building
import Tangle.Proofs.Document.Reading
import Tangle.Proofs.Markdown.Adapting

/-!
Sections are transparent. A parser nests them by the levels of headings; a tree in which each
section has given way to its children stands for the same document, position by position, so
headings and what is written under them become siblings.
-/

namespace Tangle.Markdown

namespace ParseTree

def holdsBlocks (kind : String) : Bool :=
  ["document", "section", "list", "list_item", "block_quote"].contains kind

theorem kind_of_holdsBlocks {kind : String} (holds : holdsBlocks kind) :
    kind = "document" ∨ kind = "section" ∨ kind = "list" ∨ kind = "list_item" ∨
      kind = "block_quote" := by
  simpa [holdsBlocks] using holds

mutual

/-- The tree with the children of a section in its place wherever it stands among blocks. -/
def flattened : ParseTree → ParseTree
  | node kind span children inlines =>
    node kind span (if holdsBlocks kind then splicedAll children else flattenedAll children)
      (flattenedAll inlines)

def flattenedAll : List ParseTree → List ParseTree
  | [] => []
  | tree :: rest => tree.flattened :: flattenedAll rest

def splicedAll : List ParseTree → List ParseTree
  | [] => []
  | tree :: rest =>
    (if tree.kind = "section" then tree.flattened.children else [tree.flattened]) ++
      splicedAll rest

end

@[simp] theorem kind_flattened (tree : ParseTree) : tree.flattened.kind = tree.kind := by
  cases tree with
  | node kind span children inlines => rw [flattened]; rfl

@[simp] theorem span_flattened (tree : ParseTree) : tree.flattened.span = tree.span := by
  cases tree with
  | node kind span children inlines => rw [flattened]; rfl

theorem flattenedAll_eq_map (trees : List ParseTree) :
    flattenedAll trees = trees.map flattened := by
  induction trees with
  | nil => rw [flattenedAll, List.map_nil]
  | cons tree rest ih => rw [flattenedAll, List.map_cons, ih]

theorem inlines_flattened (tree : ParseTree) :
    tree.flattened.inlines = tree.inlines.map flattened := by
  cases tree with
  | node kind span children inlines => rw [flattened, ← flattenedAll_eq_map]; rfl

theorem children_flattened_of_holdsBlocks {tree : ParseTree} (holds : holdsBlocks tree.kind) :
    tree.flattened.children = splicedAll tree.children := by
  cases tree with
  | node kind span children inlines => rw [flattened]; exact if_pos holds

theorem children_flattened {tree : ParseTree} (plain : ¬holdsBlocks tree.kind) :
    tree.flattened.children = tree.children.map flattened := by
  cases tree with
  | node kind span children inlines =>
    rw [flattened, flattenedAll_eq_map]
    exact if_neg plain

theorem find?_kind_map_flattened (kind : String) (trees : List ParseTree) :
    (trees.map flattened).find? (·.kind == kind) =
      (trees.find? (·.kind == kind)).map flattened := by
  rw [List.find?_map]
  congr 2
  funext tree
  exact congrArg (· == kind) (kind_flattened tree)

theorem child?_flattened {tree : ParseTree} (plain : ¬holdsBlocks tree.kind) (kind : String) :
    tree.flattened.child? kind = (tree.child? kind).map flattened := by
  rw [child?, children_flattened plain, find?_kind_map_flattened]
  rfl

theorem kind_of_child? {tree child : ParseTree} {kind : String}
    (found : tree.child? kind = some child) : child.kind = kind := by
  have same := List.find?_some found
  exact eq_of_beq same

inductive Flat : ParseTree → Prop where
  | node {kind : String} {span : Span} {children inlines : List ParseTree}
      (apart : holdsBlocks kind → ∀ child ∈ children, child.kind ≠ "section")
      (below : ∀ child ∈ children, Flat child) (within : ∀ child ∈ inlines, Flat child) :
      Flat (.node kind span children inlines)

mutual

theorem flat_flattened (tree : ParseTree) : tree.flattened.Flat := by
  cases tree with
  | node kind span children inlines =>
    have within := flat_flattenedAll inlines
    rw [flattened]
    split_ifs with holds
    · have spliced := flat_splicedAll children
      exact .node (fun _ child member => (spliced child member).1)
        (fun child member => (spliced child member).2) within
    · exact .node (fun own => absurd own holds) (flat_flattenedAll children) within

theorem flat_flattenedAll (trees : List ParseTree) : ∀ tree ∈ flattenedAll trees, tree.Flat := by
  cases trees with
  | nil => simp [flattenedAll]
  | cons tree rest =>
    rw [flattenedAll, List.forall_mem_cons]
    exact ⟨flat_flattened tree, flat_flattenedAll rest⟩

theorem flat_splicedAll (trees : List ParseTree) :
    ∀ tree ∈ splicedAll trees, tree.kind ≠ "section" ∧ tree.Flat := by
  cases trees with
  | nil => simp [splicedAll]
  | cons tree rest =>
    rw [splicedAll, List.forall_mem_append]
    refine ⟨?_, flat_splicedAll rest⟩
    have whole := flat_flattened tree
    split_ifs with own
    · have holds : holdsBlocks tree.flattened.kind := by
        rw [kind_flattened, own]
        decide
      cases same : tree.flattened with
      | node kind span children inlines =>
        rw [same] at whole holds
        cases whole with
        | node apart below within =>
          exact fun child member => ⟨apart holds child member, below child member⟩
    · rw [List.forall_mem_singleton, kind_flattened]
      exact ⟨own, whole⟩

end

end ParseTree

open ParseTree

section Inlines

variable (source : List Char)

theorem inlineRole_of_holdsBlocks {kind : String} (holds : holdsBlocks kind) :
    InlineRole.ofKind kind = .plain := by
  rcases kind_of_holdsBlocks holds with rfl | rfl | rfl | rfl | rfl <;> decide

theorem codeSpanText_map_flattened (span : Span) (children : List ParseTree) :
    codeSpanText source span (children.map flattened) = codeSpanText source span children := by
  have delimiters : (children.map flattened).filter (·.kind == "code_span_delimiter") =
      (children.filter (·.kind == "code_span_delimiter")).map flattened := by
    rw [List.filter_map]
    congr 2
    funext tree
    exact congrArg (· == "code_span_delimiter") (kind_flattened tree)
  unfold codeSpanText codeSpanInner
  simp only [delimiters, List.head?_map, List.getLast?_map]
  cases (children.filter (·.kind == "code_span_delimiter")).head? <;>
    cases (children.filter (·.kind == "code_span_delimiter")).getLast? <;> simp

mutual

theorem inlineOutline_flattened (tree : ParseTree) :
    inlineOutline source tree.flattened = inlineOutline source tree := by
  cases tree with
  | node kind span children inlines =>
    rw [flattened]
    by_cases holds : holdsBlocks kind
    · rw [inlineOutline, inlineOutline, inlineRole_of_holdsBlocks holds]
    · rw [if_neg holds, flattenedAll_eq_map, inlineOutline, inlineOutline,
        codeSpanText_map_flattened, inlineOutlines_map_flattened span span.start children,
        labelOutlines?_map_flattened "link_text" (by decide) children,
        labelOutlines?_map_flattened "image_description" (by decide) children]

theorem inlineOutlines_map_flattened (span : Span) (done : Nat) (trees : List ParseTree) :
    inlineOutlines source span done (trees.map flattened) =
      inlineOutlines source span done trees := by
  cases trees with
  | nil => rfl
  | cons tree rest =>
    rw [List.map_cons, inlineOutlines, inlineOutlines, span_flattened, inlineOutline_flattened tree]
    simp only [inlineOutlines_map_flattened span _ rest]

theorem labelOutlines?_map_flattened (wanted : String) (plain : ¬holdsBlocks wanted)
    (trees : List ParseTree) :
    labelOutlines? source wanted (trees.map flattened) = labelOutlines? source wanted trees := by
  cases trees with
  | nil => rfl
  | cons tree rest =>
    cases tree with
    | node kind span children inlines =>
      rw [List.map_cons, flattened, labelOutlines?, labelOutlines?]
      split_ifs with same holds
      · exact absurd (same ▸ holds) plain
      · simp only [flattenedAll_eq_map, inlineOutlines_map_flattened _ _ children]
      · exact labelOutlines?_map_flattened wanted plain rest

end

theorem inlineWithin_flattened (span : Span) (node : ParseTree) :
    inlineWithin source span node.flattened = inlineWithin source span node := by
  rw [inlineWithin, inlines_flattened, inlineOutlines_map_flattened]
  rfl

theorem inlineContent_flattened (node : ParseTree) :
    inlineContent source node.flattened = inlineContent source node := by
  rw [inlineContent, inlineWithin_flattened, span_flattened]
  rfl

end Inlines

section Blocks

variable (source : List Char)

theorem atxLevel_map_flattened (children : List ParseTree) :
    atxLevel (children.map flattened) = atxLevel children := by
  rw [atxLevel, List.findSome?_map]
  congr 2
  funext tree
  exact congrArg markerLevel? (kind_flattened tree)

theorem setextLevel_map_flattened (children : List ParseTree) :
    setextLevel (children.map flattened) = setextLevel children := by
  rw [setextLevel, List.any_map]
  congr 3
  funext tree
  exact congrArg (· == "setext_h1_underline") (kind_flattened tree)

section Content

variable {tree : ParseTree} (plain : ¬holdsBlocks tree.kind)

include plain

theorem atxContent_flattened : atxContent source tree.flattened = atxContent source tree := by
  unfold atxContent
  rw [child?_flattened plain]
  cases tree.child? "inline" with
  | none => rfl
  | some line =>
    rw [Option.map_some]
    simp only [span_flattened, inlineWithin_flattened]

theorem setextContent_flattened :
    setextContent source tree.flattened = setextContent source tree := by
  unfold setextContent
  rw [child?_flattened plain]
  cases found : tree.child? "paragraph" with
  | none => rfl
  | some paragraph =>
    have inner : ¬holdsBlocks paragraph.kind := by
      rw [kind_of_child? found]
      decide
    rw [Option.map_some, Option.bind_some, Option.bind_some, child?_flattened inner]
    cases paragraph.child? "inline" with
    | none => rfl
    | some line =>
      rw [Option.map_some]
      exact inlineContent_flattened source line

theorem paragraphContent_flattened :
    paragraphContent source tree.flattened = paragraphContent source tree := by
  unfold paragraphContent
  rw [children_flattened plain, List.filter_map, List.flatMap_map]
  simp only [inlineContent_flattened, Function.comp_def, kind_flattened]

theorem fenceText_flattened : fenceText source tree.flattened = fenceText source tree := by
  unfold fenceText
  rw [child?_flattened plain]
  cases tree.child? "code_fence_content" with
  | none => rfl
  | some content =>
    rw [Option.map_some]
    simp only [span_flattened]

end Content

theorem holdsBlocks_of_role {kind : String} {role : BlockRole} (own : BlockRole.ofKind kind = role)
    (nests : role = .section ∨ role = .list ∨ role = .listItem ∨ role = .quote) :
    holdsBlocks kind := by
  subst own
  unfold BlockRole.ofKind at nests
  split at nests <;> first | rfl | (split at nests <;> simp at nests) | simp at nests

theorem blocksOutlines_append (trees more : List ParseTree) :
    blocksOutlines source (trees ++ more) =
      blocksOutlines source trees ++ blocksOutlines source more := by
  induction trees with
  | nil => rfl
  | cons tree rest ih =>
    rw [List.cons_append, blocksOutlines, blocksOutlines, ih, List.append_assoc]

theorem blockOutlines_of_section {tree : ParseTree} (own : tree.kind = "section") :
    blockOutlines source tree = blocksOutlines source tree.children := by
  cases tree with
  | node kind span children inlines =>
    obtain rfl : kind = "section" := own
    rw [blockOutlines]
    rfl

mutual

theorem blockOutlines_flattened (tree : ParseTree) :
    blockOutlines source tree.flattened = blockOutlines source tree := by
  cases tree with
  | node kind span children inlines =>
    by_cases holds : holdsBlocks kind
    · have below : blocksOutlines source (splicedAll children) = blocksOutlines source children :=
        blocksOutlines_splicedAll children
      rw [flattened, if_pos holds, blockOutlines, blockOutlines, below]
      rcases kind_of_holdsBlocks holds with rfl | rfl | rfl | rfl | rfl <;> rfl
    · have whole : node kind span (children.map flattened) (inlines.map flattened) =
          (node kind span children inlines).flattened := by
        rw [flattened, if_neg holds, flattenedAll_eq_map, flattenedAll_eq_map]
      have plain : ¬holdsBlocks (node kind span children inlines).kind := holds
      rw [← whole, blockOutlines, blockOutlines]
      simp only [whole]
      cases own : BlockRole.ofKind kind with
      | «section» => exact absurd (holdsBlocks_of_role own (by simp)) holds
      | list => exact absurd (holdsBlocks_of_role own (by simp)) holds
      | listItem => exact absurd (holdsBlocks_of_role own (by simp)) holds
      | quote => exact absurd (holdsBlocks_of_role own (by simp)) holds
      | atxHeading => simp only [atxLevel_map_flattened, atxContent_flattened source plain]
      | setextHeading => simp only [setextLevel_map_flattened, setextContent_flattened source plain]
      | paragraph => simp only [paragraphContent_flattened source plain]
      | fencedCode => simp only [fenceText_flattened source plain]
      | indentedCode => rfl
      | thematicBreak => rfl
      | html => rfl
      | marker => rfl
      | other => rfl

theorem blocksOutlines_splicedAll (trees : List ParseTree) :
    blocksOutlines source (splicedAll trees) = blocksOutlines source trees := by
  cases trees with
  | nil => rfl
  | cons tree rest =>
    rw [splicedAll, blocksOutlines_append, blocksOutlines_splicedAll rest, blocksOutlines,
      ← blockOutlines_flattened tree]
    split_ifs with own
    · rw [blockOutlines_of_section source ((kind_flattened tree).trans own)]
    · rw [blocksOutlines, blocksOutlines, List.append_nil]

end

/-- A block that is neither a section nor a marker stands for one node. -/
theorem exists_blockOutlines {tree : ParseTree} (own : tree.kind ≠ "section")
    (kept : BlockRole.ofKind tree.kind ≠ .marker) :
    ∃ outline, blockOutlines source tree = [outline] := by
  cases tree with
  | node kind span children inlines =>
    rw [blockOutlines]
    cases role : BlockRole.ofKind kind with
    | «section» =>
      have holds := holdsBlocks_of_role role (by simp)
      rcases kind_of_holdsBlocks holds with rfl | rfl | rfl | rfl | rfl
      all_goals first | exact absurd rfl own | exact absurd role (by decide)
    | marker => exact absurd role kept
    | _ => exact ⟨_, rfl⟩

theorem blocksOutlines_map_flattened (trees : List ParseTree) :
    blocksOutlines source (trees.map flattened) = blocksOutlines source trees := by
  induction trees with
  | nil => rfl
  | cons tree rest ih =>
    rw [List.map_cons, blocksOutlines, blocksOutlines, blockOutlines_flattened, ih]

theorem blocksOutlines_children_flattened (tree : ParseTree) :
    blocksOutlines source tree.flattened.children = blocksOutlines source tree.children := by
  by_cases holds : holdsBlocks tree.kind
  · rw [children_flattened_of_holdsBlocks holds, blocksOutlines_splicedAll]
  · rw [children_flattened holds, blocksOutlines_map_flattened]

/-- The blocks among some nodes and in the sections among these, markers apart. -/
def contents (trees : List ParseTree) : List ParseTree :=
  (splicedAll trees).filter fun tree => BlockRole.ofKind tree.kind ≠ .marker

theorem blockOutlines_of_marker {tree : ParseTree}
    (marks : BlockRole.ofKind tree.kind = .marker) : blockOutlines source tree = [] := by
  cases tree with
  | node kind span children inlines =>
    have role : BlockRole.ofKind kind = .marker := marks
    rw [blockOutlines, role]

theorem forall₂_of_unnested {trees : List ParseTree}
    (apart : ∀ tree ∈ trees, tree.kind ≠ "section") :
    List.Forall₂ (fun block outline => blockOutlines source block = [outline])
      (trees.filter fun tree => BlockRole.ofKind tree.kind ≠ .marker)
      (blocksOutlines source trees) := by
  induction trees with
  | nil => exact .nil
  | cons tree rest ih =>
    rw [List.forall_mem_cons] at apart
    rw [blocksOutlines]
    by_cases marks : BlockRole.ofKind tree.kind = .marker
    · rw [List.filter_cons_of_neg (by simpa using marks), blockOutlines_of_marker source marks]
      exact ih apart.2
    · obtain ⟨outline, single⟩ := exists_blockOutlines source apart.1 marks
      rw [List.filter_cons_of_pos (by simpa using marks), single]
      exact .cons single (ih apart.2)

theorem forall₂_contents (trees : List ParseTree) :
    List.Forall₂ (fun block outline => blockOutlines source block = [outline]) (contents trees)
      (blocksOutlines source trees) := by
  rw [← blocksOutlines_splicedAll source trees]
  exact forall₂_of_unnested source fun tree member => (flat_splicedAll trees tree member).1

end Blocks

/--
Putting the children of each section in its place wherever it stands among blocks leaves no section
there and does not change the document. So, however deep sections are nested, the blocks in them are
the children of the root, one node for each in the order of the parse.
-/
theorem sections_transparent (text : String) (tree : ParseTree) :
    document text tree.flattened = document text tree ∧ tree.flattened.Flat ∧
    List.Forall₂
      (fun block id => blockOutlines text.toList block = [(document text tree).outlineAt id])
      (contents tree.children) ((document text tree).children Document.root) := by
  refine ⟨?_, flat_flattened tree, ?_⟩
  · rw [document_eq_ofOutlines, blocksOutlines_children_flattened, document_eq_ofOutlines]
  · have built := built_document text tree
    have below : ((document text tree).children Document.root).map (document text tree).outlineAt =
        blocksOutlines text.toList tree.children := by
      rw [built.children_eq, ← Document.children_outlineAt, document_eq_ofOutlines]
      exact Document.children_ofOutlines _
    have listed := forall₂_contents text.toList tree.children
    rw [← below, List.forall₂_map_right_iff] at listed
    exact listed

end Tangle.Markdown
