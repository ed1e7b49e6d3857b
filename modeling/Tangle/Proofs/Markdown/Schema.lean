import Tangle.Proofs.Document.Reading
import Tangle.Proofs.Document.Touring
import Tangle.Proofs.Markdown.Adapting

/-!
The schema of the documents that stand for Markdown. Blocks hold blocks or inlines, inlines hold
inlines, and leaves hold text and nothing else. This is so whatever the parse looks like: what a node
stands for is decided by its kind alone, and what its content is read as by the place where it stands.
-/

namespace Tangle

namespace Kind

def isBlock : Kind → Bool
  | heading | paragraph | codeBlock | list | listItem | blockQuote | thematicBreak | htmlBlock
  | other => true
  | _ => false

def isInline : Kind → Bool
  | text | codeSpan | emphasis | strong | link | lineBreak => true
  | _ => false

def holdsBlocks : Kind → Bool
  | document | list | listItem | blockQuote => true
  | _ => false

def holdsInlines : Kind → Bool
  | heading | paragraph | emphasis | strong | link => true
  | _ => false

end Kind

/-- What the schema asks of a node with a label and with children of these kinds. -/
structure Label.Fits (levels : Nat → Prop) (label : Label) (below : List Kind) : Prop where
  blocks : label.kind.holdsBlocks → ∀ kind ∈ below, kind.isBlock
  inlines : label.kind.holdsInlines → ∀ kind ∈ below, kind.isInline
  childless : label.kind.isLeaf → below = []
  literal : label.literal.isSome ↔ label.kind.isLeaf ∧ label.kind ≠ .thematicBreak
  code : label.kind = .codeBlock → ∀ text ∈ label.literal, text = "" ∨ ∃ body, text = body ++ "\n"
  plain : label.kind ≠ .heading → label.level = 0
  heading : label.kind = .heading → levels label.level

namespace Label

variable {levels : Nat → Prop} {kind : Kind} {below : List Kind}

theorem fits_leaf (leaf : kind.isLeaf) (other : kind ≠ .thematicBreak) {text : String}
    (code : kind = .codeBlock → text = "" ∨ ∃ body, text = body ++ "\n") :
    Fits levels { kind := kind, literal := some text } [] where
  blocks := by simp
  inlines := by simp
  childless := fun _ => rfl
  literal := by simp [leaf, other]
  code := by
    intro own literal same
    obtain rfl := Option.some.inj same
    exact code own
  plain := fun _ => rfl
  heading := by
    rintro rfl
    cases leaf

theorem fits_thematicBreak : Fits levels { kind := .thematicBreak } [] where
  blocks := by simp
  inlines := by simp
  childless := fun _ => rfl
  literal := by simp
  code := by simp
  plain := fun _ => rfl
  heading := by simp

theorem fits_blocks (holds : kind.holdsBlocks) (all : ∀ child ∈ below, child.isBlock) :
    Fits levels { kind := kind } below where
  blocks := fun _ => all
  inlines := by cases kind <;> cases holds <;> simp [Kind.holdsInlines]
  childless := by cases kind <;> cases holds <;> simp [Kind.isLeaf]
  literal := by cases kind <;> cases holds <;> simp [Kind.isLeaf]
  code := by simp
  plain := fun _ => rfl
  heading := by
    rintro rfl
    cases holds

theorem fits_inlines {level : Nat} (holds : kind.holdsInlines)
    (all : ∀ child ∈ below, child.isInline) (plain : kind ≠ .heading → level = 0)
    (heading : kind = .heading → levels level) :
    Fits levels { kind := kind, level := level } below where
  blocks := by cases kind <;> cases holds <;> simp [Kind.holdsBlocks]
  inlines := fun _ => all
  childless := by cases kind <;> cases holds <;> simp [Kind.isLeaf]
  literal := by cases kind <;> cases holds <;> simp [Kind.isLeaf]
  code := by simp
  plain := plain
  heading := heading

end Label

namespace Outline

/-- A tree all of whose nodes fit the schema. -/
inductive Conforms (levels : Nat → Prop) : Outline → Prop where
  | node {label : Label} {children : List Outline} (fits : label.Fits levels (children.map kind))
      (below : ∀ child ∈ children, Conforms levels child) : Conforms levels (.node label children)

def Fitting (admitted : Kind → Bool) (levels : Nat → Prop) (outlines : List Outline) : Prop :=
  ∀ outline ∈ outlines, admitted outline.kind ∧ outline.Conforms levels

section Fitting

variable {admitted : Kind → Bool} {levels : Nat → Prop}

theorem fitting_nil : Fitting admitted levels [] := by
  intro outline member
  cases member

theorem fitting_singleton {outline : Outline} (own : admitted outline.kind)
    (conforms : outline.Conforms levels) : Fitting admitted levels [outline] := by
  intro other member
  obtain rfl := List.mem_singleton.mp member
  exact ⟨own, conforms⟩

theorem Fitting.append {outlines more : List Outline} (first : Fitting admitted levels outlines)
    (second : Fitting admitted levels more) : Fitting admitted levels (outlines ++ more) :=
  List.forall_mem_append.mpr ⟨first, second⟩

theorem Fitting.kinds {outlines : List Outline} (fitting : Fitting admitted levels outlines) :
    ∀ child ∈ outlines.map kind, admitted child := by
  intro child member
  obtain ⟨outline, present, rfl⟩ := List.mem_map.mp member
  exact (fitting outline present).1

theorem Fitting.conforms {outlines : List Outline} (fitting : Fitting admitted levels outlines) :
    ∀ outline ∈ outlines, outline.Conforms levels :=
  fun outline member => (fitting outline member).2

end Fitting

section Conforms

variable {levels : Nat → Prop} {kind : Kind} {children : List Outline}

theorem conforms_leaf (own : kind.isLeaf) (other : kind ≠ .thematicBreak) {literal : List Char}
    (code : kind = .codeBlock → literal = [] ∨ ∃ body, literal = body ++ ['\n']) :
    (leaf kind literal).Conforms levels := by
  refine .node (Label.fits_leaf own other fun same => ?_) (by simp)
  rcases code same with rfl | ⟨body, rfl⟩
  · exact .inl rfl
  · exact .inr ⟨String.ofList body, String.ofList_append⟩

theorem conforms_text (own : kind.isLeaf) (other : kind ≠ .thematicBreak)
    (plain : kind ≠ .codeBlock) (literal : List Char) : (leaf kind literal).Conforms levels :=
  conforms_leaf own other fun same => absurd same plain

theorem conforms_thematicBreak : (branch .thematicBreak []).Conforms levels :=
  .node Label.fits_thematicBreak (by simp)

theorem conforms_blocks (holds : kind.holdsBlocks) (fitting : Fitting Kind.isBlock levels children) :
    (branch kind children).Conforms levels :=
  .node (Label.fits_blocks holds fitting.kinds) fitting.conforms

theorem conforms_inlines (holds : kind.holdsInlines) (other : kind ≠ .heading)
    (fitting : Fitting Kind.isInline levels children) : (branch kind children).Conforms levels :=
  .node (Label.fits_inlines holds fitting.kinds (fun _ => rfl) fun same => absurd same other)
    fitting.conforms

theorem conforms_heading {level : Nat} (allowed : levels level)
    (fitting : Fitting Kind.isInline levels children) : (heading level children).Conforms levels :=
  .node (Label.fits_inlines rfl fitting.kinds (fun other => absurd rfl other) fun _ => allowed)
    fitting.conforms

end Conforms

end Outline

namespace Markdown

open Outline

section Inlines

variable {levels : Nat → Prop} (source : List Char)

theorem fitting_text (literal : List Char) : Fitting Kind.isInline levels [.leaf .text literal] :=
  fitting_singleton rfl (conforms_text rfl (by decide) (by decide) literal)

theorem fitting_gap (start stop : Nat) : Fitting Kind.isInline levels (gap source start stop) := by
  unfold gap
  split
  · exact fitting_nil
  · exact fitting_text _

mutual

theorem fitting_inlineOutline (tree : ParseTree) :
    Fitting Kind.isInline levels (inlineOutline source tree) := by
  cases tree with
  | node kind span children inlines =>
    rw [inlineOutline]
    cases InlineRole.ofKind kind with
    | delimiter => exact fitting_nil
    | code => exact fitting_singleton rfl (conforms_text rfl (by decide) (by decide) _)
    | emphasis =>
      exact fitting_singleton rfl
        (conforms_inlines rfl (by decide) (fitting_inlineOutlines span span.start children))
    | strong =>
      exact fitting_singleton rfl
        (conforms_inlines rfl (by decide) (fitting_inlineOutlines span span.start children))
    | link =>
      refine fitting_singleton rfl (conforms_inlines rfl (by decide) ?_)
      have text := fitting_labelOutlines? "link_text" children
      have image := fitting_labelOutlines? "image_description" children
      cases first : labelOutlines? source "link_text" children with
      | some outlines => exact text outlines first
      | none =>
        cases second : labelOutlines? source "image_description" children with
        | some outlines => exact image outlines second
        | none => exact fitting_nil
    | autolink => exact fitting_text _
    | escape => exact fitting_text _
    | lineBreak => exact fitting_singleton rfl (conforms_text rfl (by decide) (by decide) _)
    | plain => exact fitting_text _

theorem fitting_inlineOutlines (span : Span) (done : Nat) (trees : List ParseTree) :
    Fitting Kind.isInline levels (inlineOutlines source span done trees) := by
  cases trees with
  | nil =>
    rw [inlineOutlines]
    exact fitting_gap source _ _
  | cons tree rest =>
    rw [inlineOutlines]
    split
    · exact fitting_inlineOutlines span done rest
    · exact ((fitting_gap source _ _).append (fitting_inlineOutline tree)).append
        (fitting_inlineOutlines span _ rest)

theorem fitting_labelOutlines? (wanted : String) (trees : List ParseTree) :
    ∀ outlines ∈ labelOutlines? source wanted trees, Fitting Kind.isInline levels outlines := by
  intro outlines found
  cases trees with
  | nil =>
    rw [labelOutlines?] at found
    cases found
  | cons tree rest =>
    cases tree with
    | node kind span children inlines =>
      rw [labelOutlines?] at found
      split at found
      · obtain rfl := Option.some.inj found
        exact fitting_inlineOutlines _ _ children
      · exact fitting_labelOutlines? wanted rest outlines found

end

theorem fitting_inlineContent (node : ParseTree) :
    Fitting Kind.isInline levels (inlineContent source node) :=
  fitting_inlineOutlines source _ _ node.inlines

end Inlines

section Code

theorem withFinalBreak_spec (text : List Char) :
    withFinalBreak text = [] ∨ ∃ body, withFinalBreak text = body ++ ['\n'] := by
  unfold withFinalBreak
  split_ifs with ends
  · rcases ends with rfl | last
    · exact .inl rfl
    · obtain ⟨body, same⟩ := List.getLast?_eq_some_iff.mp last
      exact .inr ⟨body, same⟩
  · exact .inr ⟨text, rfl⟩

theorem fitting_code {levels : Nat → Prop} (text : List Char) :
    Fitting Kind.isBlock levels [.leaf .codeBlock (withFinalBreak text)] :=
  fitting_singleton rfl (conforms_leaf rfl (by decide) fun _ => withFinalBreak_spec text)

end Code

namespace ParseTree

mutual

/-- The nodes of a parse, those of second parses left out. -/
def parts : ParseTree → List ParseTree
  | node kind span children inlines => node kind span children inlines :: partsOf children

def partsOf : List ParseTree → List ParseTree
  | [] => []
  | tree :: rest => tree.parts ++ partsOf rest

end

end ParseTree

section Blocks

variable {levels : Nat → Prop} (source : List Char)

theorem fitting_atxContent (node : ParseTree) :
    Fitting Kind.isInline levels (atxContent source node) := by
  unfold atxContent
  cases node.child? "inline" with
  | none => exact fitting_nil
  | some line => exact fitting_inlineOutlines source _ _ line.inlines

theorem fitting_setextContent (node : ParseTree) :
    Fitting Kind.isInline levels (setextContent source node) := by
  unfold setextContent
  cases (node.child? "paragraph").bind (·.child? "inline") with
  | none => exact fitting_nil
  | some line => exact fitting_inlineContent source line

theorem fitting_paragraphContent (node : ParseTree) :
    Fitting Kind.isInline levels (paragraphContent source node) := by
  intro outline member
  obtain ⟨line, -, present⟩ := List.mem_flatMap.mp member
  exact fitting_inlineContent source line outline present

theorem setextLevel_allowed (first : levels 1) (second : levels 2) (children : List ParseTree) :
    levels (setextLevel children) := by
  unfold setextLevel
  split_ifs
  · exact first
  · exact second

mutual

theorem fitting_blockOutlines (first : levels 1) (second : levels 2) (tree : ParseTree)
    (atx : ∀ node ∈ tree.parts, levels (atxLevel node.children)) :
    Fitting Kind.isBlock levels (blockOutlines source tree) := by
  cases tree with
  | node kind span children inlines =>
    rw [ParseTree.parts, List.forall_mem_cons] at atx
    have below : Fitting Kind.isBlock levels (blocksOutlines source children) :=
      fitting_blocksOutlines first second children atx.2
    rw [blockOutlines]
    cases BlockRole.ofKind kind with
    | «section» => exact below
    | atxHeading =>
      exact fitting_singleton rfl (conforms_heading atx.1 (fitting_atxContent source _))
    | setextHeading =>
      exact fitting_singleton rfl (conforms_heading (setextLevel_allowed first second children)
        (fitting_setextContent source _))
    | paragraph =>
      exact fitting_singleton rfl
        (conforms_inlines rfl (by decide) (fitting_paragraphContent source _))
    | fencedCode => exact fitting_code _
    | indentedCode => exact fitting_code _
    | list => exact fitting_singleton rfl (conforms_blocks rfl below)
    | listItem => exact fitting_singleton rfl (conforms_blocks rfl below)
    | quote => exact fitting_singleton rfl (conforms_blocks rfl below)
    | thematicBreak => exact fitting_singleton rfl conforms_thematicBreak
    | html => exact fitting_singleton rfl (conforms_text rfl (by decide) (by decide) _)
    | marker => exact fitting_nil
    | other => exact fitting_singleton rfl (conforms_text rfl (by decide) (by decide) _)

theorem fitting_blocksOutlines (first : levels 1) (second : levels 2) (trees : List ParseTree)
    (atx : ∀ node ∈ ParseTree.partsOf trees, levels (atxLevel node.children)) :
    Fitting Kind.isBlock levels (blocksOutlines source trees) := by
  cases trees with
  | nil =>
    rw [blocksOutlines]
    exact fitting_nil
  | cons tree rest =>
    rw [ParseTree.partsOf, List.forall_mem_append] at atx
    rw [blocksOutlines]
    exact (fitting_blockOutlines first second tree atx.1).append
      (fitting_blocksOutlines first second rest atx.2)

end

theorem conforms_document (first : levels 1) (second : levels 2) (text : String) (tree : ParseTree)
    (atx : ∀ node ∈ tree.parts, levels (atxLevel node.children)) :
    (document text tree).outline.Conforms levels := by
  cases tree with
  | node kind span children inlines =>
    rw [ParseTree.parts, List.forall_mem_cons] at atx
    rw [document_eq_ofOutlines, Document.outline_ofOutlines]
    exact conforms_blocks rfl (fitting_blocksOutlines text.toList first second children atx.2)

end Blocks

/--
A kind that goes on from `atx_h` with a digit goes on with one from 1 to 6, as those of the six
markers of headings do.
-/
def isNamedMarker (kind : String) : Bool :=
  match "atx_h".toList.isPrefixOf? kind.toList with
  | some (c :: _) => !c.isDigit || "123456".toList.contains c
  | _ => true

def ParseTree.NamesMarkers (tree : ParseTree) : Prop :=
  ∀ node ∈ tree.parts, ∀ child ∈ node.children, isNamedMarker child.kind

theorem markerLevel?_of_named {kind : String} (named : isNamedMarker kind) {level : Nat}
    (marks : markerLevel? kind = some level) : 1 ≤ level ∧ level ≤ 6 := by
  unfold isNamedMarker at named
  unfold markerLevel? at marks
  split at marks
  · next c rest found =>
    rw [found] at named
    split_ifs at marks with digit
    obtain rfl := Option.some.inj marks
    have digits : c = '1' ∨ c = '2' ∨ c = '3' ∨ c = '4' ∨ c = '5' ∨ c = '6' := by
      simpa [digit] using named
    rcases digits with rfl | rfl | rfl | rfl | rfl | rfl <;> decide
  · cases marks

theorem atxLevel_of_named {children : List ParseTree}
    (named : ∀ child ∈ children, isNamedMarker child.kind) :
    1 ≤ atxLevel children ∧ atxLevel children ≤ 6 := by
  unfold atxLevel
  cases found : children.findSome? (markerLevel? ·.kind) with
  | none => decide
  | some level =>
    obtain ⟨child, member, marks⟩ := List.exists_of_findSome?_eq_some found
    exact markerLevel?_of_named (named child member) marks

end Markdown

namespace Document

variable {doc : Document} {levels : Nat → Prop}

def Follows (doc : Document) (levels : Nat → Prop) : Prop :=
  ∀ id node, doc.get? id = some node → ∃ kinds,
    (doc.children id).map doc.kind? = kinds.map some ∧ node.toLabel.Fits levels kinds

theorem Attached.conforms (whole : doc.outline.Conforms levels) {id : Nat}
    (attached : doc.Attached id) : (doc.outlineAt id).Conforms levels := by
  induction attached with
  | root => exact whole
  | @child id child attached member ih =>
    rw [outlineAt_eq] at ih
    cases ih with
    | node _ below => exact below _ (List.mem_map.mpr ⟨child, member, rfl⟩)

theorem Built.follows (built : Built doc) (whole : doc.outline.Conforms levels) :
    doc.Follows levels := by
  intro id node found
  have inside := lt_size_of_get? found
  have label : node.toLabel = doc.labelAt id := by
    rw [labelAt, found]
    rfl
  have conforms := (built.attached inside).conforms whole
  rw [outlineAt_eq] at conforms
  cases conforms with
  | node fits below =>
    refine ⟨_, ?_, label ▸ fits⟩
    rw [built.children_eq, List.map_map, List.map_map]
    apply List.map_congr_left
    intro child member
    exact kind?_eq (mem_offspring.mp member).1

end Document

/--
The document of any text and any parse follows the schema, and where the parse names the markers of
headings as it should, the levels of headings are those from 1 to 6.
-/
theorem Markdown.document_follows_schema (text : String) (tree : ParseTree) :
    (document text tree).Follows (fun _ => True) ∧
    (tree.NamesMarkers → (document text tree).Follows fun level => 1 ≤ level ∧ level ≤ 6) := by
  have built := built_document text tree
  constructor
  · exact built.follows (conforms_document trivial trivial text tree fun _ _ => trivial)
  · intro named
    exact built.follows (conforms_document (by decide) (by decide) text tree
      fun node member => atxLevel_of_named (named node member))

def Markdown.headed : ParseTree :=
  .node "document" ⟨0, 5⟩ [.node "section" ⟨0, 5⟩ [.node "atx_heading" ⟨0, 5⟩
    [.node "atx_h2_marker" ⟨0, 2⟩ [] [], .node "inline" ⟨3, 4⟩ [] []] []] []] []

theorem Markdown.document_follows_schema_headed : headed.NamesMarkers ∧
    (document "## a\n" headed).Follows (fun level => 1 ≤ level ∧ level ≤ 6) ∧
    (document "## a\n" headed).labelAt 1 = { kind := .heading, level := 2 } ∧
    (document "## a\n" headed).labelAt 2 = { kind := .text, literal := some "a" } := by
  have named : headed.NamesMarkers := by
    unfold ParseTree.NamesMarkers
    decide
  exact ⟨named, (document_follows_schema "## a\n" headed).2 named, by decide, by decide⟩

end Tangle
