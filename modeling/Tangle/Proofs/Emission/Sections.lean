import Tangle.Proofs.Document.Planting
import Tangle.Proofs.Emission.Agreement

/-!
Sections are independent. A heading of any level wipes out what a scan has passed and ends every
look ahead, so a list of siblings that opens with a heading is scanned as if nothing stood before
it, and what stands before it is scanned as if nothing followed.
-/

namespace Tangle

namespace Outline

/-- Nothing, or siblings that open with a heading. -/
def OpensSection (outlines : List Outline) : Prop :=
  ∀ first ∈ outlines.head?, first.kind = .heading

theorem pass_of_heading {outline : Outline} (heading : outline.kind = .heading) (passed : Passed) :
    passed.pass outline = { topic := some outline.topic } := by
  rw [Passed.pass, heading]

theorem scan_of_heading {outline : Outline} (heading : outline.kind = .heading)
    (outer : Option Group) (passed : Passed) (ahead : Bool) :
    outline.scan outer passed ahead = outline.scan outer {} ahead := by
  rw [scan_eq, scan_eq, enterPieces, enterPieces, heading]

theorem chunkAhead_append {after : List Outline} (opens : OpensSection after)
    (before : List Outline) : chunkAhead (before ++ after) = chunkAhead before := by
  induction before with
  | nil =>
    cases after with
    | nil => rfl
    | cons first rest =>
      have heading := opens first rfl
      simp only [List.nil_append, chunkAhead, heading]
  | cons outline before ih =>
    rw [List.cons_append, chunkAhead, chunkAhead, ih]

theorem scanAll_of_opensSection {after : List Outline} (opens : OpensSection after)
    (outer : Option Group) (passed : Passed) :
    scanAll outer passed after = scanAll outer {} after := by
  cases after with
  | nil => rfl
  | cons first rest =>
    have heading := opens first rfl
    rw [scanAll, scanAll, scan_of_heading heading, pass_of_heading heading passed,
      pass_of_heading heading {}]

/-- The scan of siblings splits before every heading. -/
theorem scanAll_append {after : List Outline} (opens : OpensSection after) (outer : Option Group)
    (passed : Passed) (before : List Outline) :
    scanAll outer passed (before ++ after) =
      scanAll outer passed before ++ scanAll outer {} after := by
  induction before generalizing passed with
  | nil => rw [List.nil_append, scanAll_of_opensSection opens, scanAll, List.nil_append]
  | cons outline before ih =>
    rw [List.cons_append, scanAll, scanAll, chunkAhead_append opens, ih, List.append_assoc]

end Outline

@[simp] theorem Generated.ofPieces_nil : Generated.ofPieces [] = ⟨"", []⟩ := rfl

@[simp] theorem Generated.ofPieces_cons (piece : Piece) (pieces : List Piece) :
    Generated.ofPieces (piece :: pieces) =
      ⟨piece.text ++ (Generated.ofPieces pieces).source,
        piece.signature?.toList ++ (Generated.ofPieces pieces).signatures⟩ := by
  unfold Generated.ofPieces
  rw [List.map_cons, String.join_cons, List.filterMap_cons]
  cases piece.signature? <;> rfl

@[simp] theorem Generated.ofPieces_append (pieces more : List Piece) :
    Generated.ofPieces (pieces ++ more) =
      ⟨(Generated.ofPieces pieces).source ++ (Generated.ofPieces more).source,
        (Generated.ofPieces pieces).signatures ++ (Generated.ofPieces more).signatures⟩ := by
  unfold Generated.ofPieces
  rw [List.map_append, String.join_append, List.filterMap_append]

namespace Document

/--
A document whose list of top nodes is cut before a heading gives what the two parts give as
documents of their own, one after the other.
-/
theorem emit_of_sections (before after : List Outline) (opens : Outline.OpensSection after)
    {whole first second : Document} (grown : Grown whole) (grownFirst : Grown first)
    (grownSecond : Grown second) (holds : whole.outline.children = before ++ after)
    (holdsFirst : first.outline.children = before)
    (holdsSecond : second.outline.children = after) :
    ∃ earlier later, first.emit = .ok earlier ∧ second.emit = .ok later ∧
      whole.emit = .ok ⟨earlier.source ++ later.source, earlier.signatures ++ later.signatures⟩ := by
  refine ⟨_, _, grownFirst.emit_eq_scanAll, grownSecond.emit_eq_scanAll, ?_⟩
  rw [grown.emit_eq_scanAll, holds, holdsFirst, holdsSecond, Outline.scanAll_append opens,
    Generated.ofPieces_append]

theorem emit_of_sections_of_functions :
    let before : List Outline :=
      [.heading 2 [.leaf .text "func ".toList, .leaf .codeSpan "F".toList],
        .leaf .codeBlock "f\n".toList]
    let after : List Outline :=
      [.heading 3 [.leaf .text "func ".toList, .leaf .codeSpan "G".toList],
        .leaf .codeBlock "g\n".toList]
    Outline.OpensSection after ∧
      ∃ earlier later, (ofOutlines before).emit = .ok earlier ∧
        (ofOutlines after).emit = .ok later ∧ (ofOutlines (before ++ after)).emit =
          .ok ⟨earlier.source ++ later.source, earlier.signatures ++ later.signatures⟩ := by
  intro before after
  have opens : Outline.OpensSection after := by
    intro first head
    obtain rfl : _ = first := Option.some.inj head
    rfl
  have holds : ∀ outlines, (ofOutlines outlines).outline.children = outlines := by
    intro outlines
    rw [outline_ofOutlines, Outline.children_node]
  exact ⟨opens, emit_of_sections before after opens (grown_ofOutlines _) (grown_ofOutlines _)
    (grown_ofOutlines _) (holds _) (holds _) (holds _)⟩

end Document

end Tangle
