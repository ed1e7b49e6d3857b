import Tangle.Proofs.Document.Building
import Tangle.Proofs.Emission.Agreement

/-!
Narrative is what has no heading, code block, list or list item in it, whatever it says. A scan
writes nothing for it and passes it by unchanged, so what a document gives does not depend on the
narrative among its top nodes.
-/

namespace Tangle

/-- The kinds that decide what is written. -/
def Kind.isStructural : Kind → Bool
  | heading | codeBlock | list | listItem => true
  | _ => false

namespace Outline

mutual

def isNarrative : Outline → Bool
  | node label children => !label.kind.isStructural && areNarrative children

def areNarrative : List Outline → Bool
  | [] => true
  | outline :: rest => outline.isNarrative && areNarrative rest

end

theorem kind_of_isNarrative {outline : Outline} (narrative : outline.isNarrative) :
    outline.kind.isStructural = false := by
  cases outline with
  | node label children =>
    rw [isNarrative, Bool.and_eq_true, Bool.not_eq_true'] at narrative
    exact narrative.1

theorem pass_of_isNarrative {outline : Outline} (narrative : outline.isNarrative)
    (passed : Passed) : passed.pass outline = passed := by
  have kind := kind_of_isNarrative narrative
  unfold Passed.pass
  cases own : outline.kind <;> simp_all [Kind.isStructural]

theorem chunkAhead_of_isNarrative {outline : Outline} (narrative : outline.isNarrative)
    (rest : List Outline) : chunkAhead (outline :: rest) = chunkAhead rest := by
  have kind := kind_of_isNarrative narrative
  rw [chunkAhead]
  cases own : outline.kind <;> simp_all [Kind.isStructural]

mutual

theorem scan_of_isNarrative (outline : Outline) (narrative : outline.isNarrative)
    (outer : Option Group) (passed : Passed) (ahead : Bool) :
    outline.scan outer passed ahead = [] := by
  have kind := kind_of_isNarrative narrative
  cases outline with
  | node label children =>
    rw [isNarrative, Bool.and_eq_true] at narrative
    have below := scanAll_of_areNarrative children narrative.2
    rw [scan, below, enterPieces, exitPieces, group?]
    cases own : (node label children).kind <;> simp_all [Kind.isStructural]

theorem scanAll_of_areNarrative (outlines : List Outline) (narrative : areNarrative outlines)
    (outer : Option Group) (passed : Passed) : scanAll outer passed outlines = [] := by
  cases outlines with
  | nil => rfl
  | cons outline rest =>
    rw [areNarrative, Bool.and_eq_true] at narrative
    rw [scanAll, scan_of_isNarrative outline narrative.1, pass_of_isNarrative narrative.1,
      scanAll_of_areNarrative rest narrative.2, List.append_nil]

end

theorem scanAll_cons_of_isNarrative {outline : Outline} (narrative : outline.isNarrative)
    (rest : List Outline) (outer : Option Group) (passed : Passed) :
    scanAll outer passed (outline :: rest) = scanAll outer passed rest := by
  rw [scanAll, scan_of_isNarrative outline narrative, pass_of_isNarrative narrative,
    List.nil_append]

theorem chunkAhead_insert {outline : Outline} (narrative : outline.isNarrative)
    (before after : List Outline) :
    chunkAhead (before ++ outline :: after) = chunkAhead (before ++ after) := by
  induction before with
  | nil => exact chunkAhead_of_isNarrative narrative after
  | cons first before ih => rw [List.cons_append, List.cons_append, chunkAhead, chunkAhead, ih]

theorem scanAll_insert {outline : Outline} (narrative : outline.isNarrative)
    (before after : List Outline) (outer : Option Group) (passed : Passed) :
    scanAll outer passed (before ++ outline :: after) = scanAll outer passed (before ++ after) := by
  induction before generalizing passed with
  | nil => exact scanAll_cons_of_isNarrative narrative after outer passed
  | cons first before ih =>
    rw [List.cons_append, List.cons_append, scanAll, scanAll, chunkAhead_insert narrative, ih]

end Outline

namespace Document

/--
A document can be given narrative at any place among its top nodes, and however the larger document
was built, it gives the source and the signatures of the one without.
-/
theorem emit_insert_narrative {doc : Document} (built : Built doc) {before after : List Outline}
    (holds : doc.outline.children = before ++ after) {narrative : Outline}
    (silent : narrative.isNarrative) :
    (∃ larger, Built larger ∧ larger.outline.children = before ++ narrative :: after) ∧
    ∀ larger, Built larger → larger.outline.children = before ++ narrative :: after →
      ∃ generated, doc.emit = .ok generated ∧ larger.emit = .ok generated := by
  constructor
  · exact ⟨ofOutlines (before ++ narrative :: after), built_ofOutlines _, children_ofOutlines _⟩
  · intro larger builtLarger holdsLarger
    refine ⟨_, built.grown.emit_eq_scanAll, ?_⟩
    rw [builtLarger.grown.emit_eq_scanAll, holdsLarger, holds, Outline.scanAll_insert silent]

theorem emit_insert_narrative_quote :
    let before : List Outline :=
      [.heading 2 [.leaf .text "func ".toList, .leaf .codeSpan "F".toList]]
    let after : List Outline := [.leaf .codeBlock "f\n".toList]
    let quote : Outline := .branch .blockQuote [.branch .paragraph
      [.leaf .text "func ".toList, .leaf .codeSpan "parameters".toList]]
    quote.isNarrative ∧ (ofOutlines (before ++ quote :: after)).emit =
      .ok ⟨"func F()" ++ bodyStart ++ "f\n" ++ bodyEnd, ["func F"]⟩ := by
  intro before after quote
  have silent : quote.isNarrative := rfl
  have plain : (ofOutlines (before ++ after)).emit =
      .ok ⟨"func F()" ++ bodyStart ++ "f\n" ++ bodyEnd, ["func F"]⟩ := by decide
  obtain ⟨generated, without, within⟩ :=
    (emit_insert_narrative (built_ofOutlines _) (children_ofOutlines (before ++ after)) silent).2 _
      (built_ofOutlines _) (children_ofOutlines (before ++ quote :: after))
  rw [plain, Except.ok.injEq] at without
  exact ⟨silent, without ▸ within⟩

end Document

end Tangle
