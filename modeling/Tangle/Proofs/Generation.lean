import Tangle.Generation
import Tangle.Proofs.Emission.Agreement
import Tangle.Proofs.Markdown.Adapting

/-!
What generation makes of bytes. Bytes that are not UTF-8 are refused with the name of their
document. All others give a source, whatever the parser makes of their text: the nodes that stand
for its parse are added below nodes that are there, so no link can break. The name of the document
goes into the footer and nowhere else.
-/

namespace Tangle

def Markdown.translation (text : String) (tree : ParseTree) : Generated :=
  .ofPieces (Outline.scanAll none {} (blocksOutlines text.toList tree.children))

theorem Markdown.emit_document (text : String) (tree : ParseTree) :
    (document text tree).emit = .ok (translation text tree) := by
  have below : (document text tree).outline.children =
      blocksOutlines text.toList tree.children := by
    rw [document_eq_ofOutlines]
    exact Document.children_ofOutlines _
  rw [(built_document text tree).grown.emit_eq_scanAll, below]
  rfl

theorem generate_of_text {parser : Parser} {content : ByteArray} {text : String}
    (decoded : String.fromUTF8? content = some text) (name : String) :
    generate parser name content =
      .ok ⟨(Markdown.translation text (parser text)).source ++ footer name,
        (Markdown.translation text (parser text)).signatures⟩ := by
  have emitted := Markdown.emit_document text (parser text)
  unfold generate
  rw [decoded]
  change Except.mapError _ (Document.generate _ name) = _
  rw [Document.generate, emitted]
  rfl

/--
Generation fails on bytes that are not UTF-8, with the name of the document, and on no others. The
source it gives is a body that does not depend on the name, and then the footer.
-/
theorem generate_fails_iff_not_utf8 (parser : Parser) (name : String) (content : ByteArray) :
    ((∃ error, generate parser name content = .error error) ↔ ¬content.IsValidUTF8) ∧
    (∀ broken, generate parser name content ≠ .error (.brokenLink broken)) ∧
    generate parser name content =
      if valid : content.IsValidUTF8 then
        .ok ⟨(Markdown.translation ⟨content, valid⟩ (parser ⟨content, valid⟩)).source ++
            footer name,
          (Markdown.translation ⟨content, valid⟩ (parser ⟨content, valid⟩)).signatures⟩
      else .error (.notUtf8 name) := by
  by_cases valid : content.IsValidUTF8
  · have decoded : String.fromUTF8? content = some ⟨content, valid⟩ := by
      rw [String.fromUTF8?, dif_pos valid]
      rfl
    rw [dif_pos valid, generate_of_text decoded name]
    refine ⟨⟨?_, fun invalid => absurd valid invalid⟩, ?_, rfl⟩
    · rintro ⟨error, failed⟩
      cases failed
    · intro broken failed
      cases failed
  · have decoded : String.fromUTF8? content = none := by
      rw [String.fromUTF8?, dif_neg valid]
    have refused : generate parser name content = .error (.notUtf8 name) := by
      rw [generate, decoded]
    rw [dif_neg valid, refused]
    refine ⟨⟨fun _ => valid, fun _ => ⟨_, rfl⟩⟩, ?_, rfl⟩
    intro broken failed
    cases failed

end Tangle
