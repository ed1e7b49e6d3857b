import Tangle.Proofs.Document.Searching
import Tangle.Proofs.Emission.Bodies

/-!
The signatures of a document. A heading is recognised by the first leaf on the way down its first
children, and its signature is the text that a walk of the subtree puts together; the two agree on
how that text begins. The walk of the document writes one signature at each heading of a function
and none elsewhere, so the signatures are the texts of these headings in document order, and they
stand in the source one after the other.
-/

namespace Tangle

/-- Texts that stand in a source one after the other, the next after the end of the one before. -/
inductive OccurInOrder : List String → String → Prop where
  | none (rest : String) : OccurInOrder [] rest
  | next (gap : String) {text : String} {texts : List String} {rest : String}
      (later : OccurInOrder texts rest) : OccurInOrder (text :: texts) (gap ++ text ++ rest)

theorem OccurInOrder.prepend {texts : List String} {source : String}
    (order : OccurInOrder texts source) (before : String) :
    OccurInOrder texts (before ++ source) := by
  cases order with
  | none rest => exact .none _
  | next gap later =>
    rw [← String.append_assoc, ← String.append_assoc]
    exact .next (before ++ gap) later

theorem Generated.occurInOrder (pieces : List Piece) :
    OccurInOrder (ofPieces pieces).signatures (ofPieces pieces).source := by
  induction pieces with
  | nil => exact .none ""
  | cons piece rest ih =>
    rw [ofPieces_cons]
    cases piece with
    | signature text => exact .next "" ih
    | _ => exact ih.prepend _

namespace Outline

theorem leafTexts_of_firstLeafText? {outline : Outline} {text : String}
    (first : outline.firstLeafText? = some text) :
    ∃ rest, leafTexts outline.children = text ++ rest := by
  induction outline using firstLeafText?.induct with
  | case1 label => cases first
  | case2 label child others leaf =>
    rw [firstLeafText?, if_pos leaf] at first
    cases child with
    | node own below =>
      rw [kind_node] at leaf
      rw [label_node] at first
      refine ⟨leafTexts below ++ leafTexts others, ?_⟩
      rw [children_node, leafTexts, leafText, Label.ownText, if_pos leaf, first, Option.getD_some,
        String.append_assoc]
  | case3 label child others inner ih =>
    rw [firstLeafText?, if_neg inner] at first
    obtain ⟨rest, begins⟩ := ih first
    refine ⟨rest ++ leafTexts others, ?_⟩
    rw [children_node, leafTexts, leafText_of_not_isLeaf (Bool.eq_false_iff.mpr inner), begins,
      String.append_assoc]

theorem signatures_codePieces (passed : Passed) (ahead : Bool) (body : String) :
    (codePieces passed ahead body).filterMap Piece.signature? = [] := by
  unfold codePieces
  rcases passed.topic with - | - | - | -
  · rfl
  · rfl
  · cases passed.chunk <;> cases passed.groups <;> cases ahead <;> rfl
  · rfl

theorem signatures_openingPieces (passed : Passed) (group : Group) :
    (openingPieces passed group).filterMap Piece.signature? = [] := by
  cases group with
  | parameters => rfl
  | returns =>
    rw [openingPieces]
    split_ifs <;> rfl

theorem signatures_entryPieces (passed : Passed) (group : Group) (outline : Outline) :
    (entryPieces passed group outline).filterMap Piece.signature? = [] := by
  rw [entryPieces]
  cases outline.findDescendant? .codeSpan with
  | none => rfl
  | some code => cases group <;> split_ifs <;> rfl

theorem signatures_enterPieces {outline : Outline} (other : outline.kind ≠ .heading)
    (outer : Option Group) (passed : Passed) (ahead : Bool) :
    (enterPieces outer passed ahead outline).filterMap Piece.signature? = [] := by
  rw [enterPieces]
  cases kind : outline.kind with
  | codeBlock => exact signatures_codePieces ..
  | heading => exact absurd kind other
  | listItem =>
    rw [List.filterMap_eq_nil_iff]
    intro piece member
    obtain ⟨group, -, written⟩ := List.mem_flatMap.mp member
    have opening := List.filterMap_eq_nil_iff.mp (signatures_openingPieces passed group) piece
    have entry := List.filterMap_eq_nil_iff.mp (signatures_entryPieces passed group outline) piece
    rw [List.mem_append] at written
    rcases written with first | second
    · split_ifs at first
      · exact opening first
      · cases first
    · split_ifs at second
      · exact entry second
      · cases second
  | _ => rfl

end Outline

namespace Document

def opensFunction (doc : Document) (id : NodeId) : Bool :=
  doc.hasKind .heading id && doc.firstLeafText? id == some functionOpening

def functionHeadings (doc : Document) : List NodeId := (doc.below root).filter doc.opensFunction

def signaturesAt (doc : Document) : Visit → List String
  | ⟨id, .enter⟩ => if doc.opensFunction id then [(doc.outlineAt id).leafText] else []
  | ⟨_, .exit⟩ => []

theorem flatMap_signaturesAt (doc : Document) (visits : List Visit) :
    visits.flatMap doc.signaturesAt =
      ((entered visits).filter doc.opensFunction).map fun id => (doc.outlineAt id).leafText := by
  induction visits with
  | nil => rfl
  | cons visit rest ih =>
    rw [List.flatMap_cons, ih]
    rcases visit with ⟨id, - | -⟩
    · rw [entered_enter, List.filter_cons, signaturesAt]
      split_ifs <;> rfl
    · rfl

section Signatures

variable {doc : Document} (built : Built doc)

include built

theorem Built.headingPieces_eq {id : Nat} (heading : doc.hasKind .heading id) :
    doc.enterPieces id = .ok ((doc.signaturesAt ⟨id, .enter⟩).map .signature) := by
  have kind : doc.kind? id = some .heading := eq_of_beq heading
  have text := built.grown.leafText_eq (built.placed (lt_size_of_hasKind heading))
  rw [enterPieces, kind, headingPieces, functionHeading?, headingToken?, if_pos heading,
    signaturesAt, opensFunction, heading, Bool.true_and, text]
  by_cases opens : doc.firstLeafText? id = some functionOpening
  · rw [if_pos opens, beq_iff_eq.mpr opens, if_pos rfl]
    rfl
  · rw [if_neg opens, beq_eq_false_iff_ne.mpr opens]
    rfl

/-- A visit writes a signature if it enters the heading of a function. -/
theorem Built.signatures_visitPieces (visit : Visit) : ∃ pieces,
    doc.visitPieces visit = .ok pieces ∧ pieces.filterMap Piece.signature? = doc.signaturesAt visit := by
  rcases visit with ⟨id, - | -⟩
  · by_cases heading : doc.hasKind .heading id
    · refine ⟨_, built.headingPieces_eq heading, ?_⟩
      rw [List.filterMap_map]
      exact List.filterMap_some
    · have none : doc.signaturesAt ⟨id, .enter⟩ = [] := by
        rw [signaturesAt, opensFunction, Bool.eq_false_iff.mpr heading]
        rfl
      rw [none, visitPieces]
      rcases built.silent_or_between id with silent | ⟨parent, before, after, between⟩
      · exact ⟨[], silent, rfl⟩
      · refine ⟨_, between.enterPieces_eq built.grown, Outline.signatures_enterPieces ?_ _ _ _⟩
        intro kind
        rw [hasKind_eq between.placed.1, kind] at heading
        exact heading rfl
  · refine ⟨_, rfl, ?_⟩
    rw [exitPieces]
    split_ifs <;> rfl

theorem Built.not_opensFunction_root : doc.opensFunction root = false := by
  have kind : doc.hasKind .heading root = false := by
    rw [hasKind_eq built.root_lt, Outline.kind, label_outlineAt, built.grown.labelAt_root]
    rfl
  rw [opensFunction, kind, Bool.false_and]

theorem Built.mem_functionHeadings {id : Nat} :
    id ∈ doc.functionHeadings ↔ doc.opensFunction id := by
  rw [functionHeadings, List.mem_filter, built.mem_below_iff]
  refine ⟨And.right, fun opens => ⟨⟨?_, ?_⟩, opens⟩⟩
  · rw [opensFunction, Bool.and_eq_true] at opens
    exact (built.attached (lt_size_of_hasKind opens.1)).within
  · rintro rfl
    rw [built.not_opensFunction_root] at opens
    cases opens

theorem Built.leafText_of_firstLeafText? {id : Nat} {kind : Kind} {text : String}
    (own : doc.kind? id = some kind) (plain : kind.isLeaf = false)
    (first : doc.firstLeafText? id = some text) : ∃ rest, doc.leafText id = .ok (text ++ rest) := by
  have inside : id < doc.size := lt_size_of_hasKind (beq_iff_eq.mpr own)
  have placed := built.placed inside
  rw [kind?_eq inside, Option.some.injEq] at own
  rw [built.grown.firstLeafText?_eq placed] at first
  obtain ⟨rest, begins⟩ := Outline.leafTexts_of_firstLeafText? first
  refine ⟨rest, ?_⟩
  rw [built.grown.leafText_eq placed, Outline.leafText_of_not_isLeaf (own ▸ plain), begins]

theorem Built.signatures_eq : ∃ generated, doc.emit = .ok generated ∧
    OccurInOrder generated.signatures generated.source ∧ generated.signatures =
      doc.functionHeadings.map fun id => (doc.outlineAt id).leafText := by
  have each := fun visit (_ : visit ∈ doc.tour root) => built.signatures_visitPieces visit
  obtain ⟨written, collected, same⟩ :=
    view_collect List.filterMap_nil (fun _ _ => List.filterMap_append) each
  refine ⟨.ofPieces written, ?_, Generated.occurInOrder written, ?_⟩
  · rw [emit, built.grown.pieces_eq_collect, collected]
    rfl
  · rw [Generated.ofPieces, same, flatMap_signaturesAt, built.entered_tour_eq_below built.root_lt,
      List.filter_cons, built.not_opensFunction_root, functionHeadings]
    rfl

end Signatures

/--
The signatures of a document are the plain texts of its function headings in document order, one for
each, and stand in the source in this order without overlapping. Document order has a node before
those below it, and these child by child. The signatures begin as their headings are recognised,
since the first leaf of any node of a kind without text is the beginning of its text.
-/
theorem signatures_of_headings {doc : Document} (built : Built doc) :
    (∃ generated, doc.emit = .ok generated ∧
      doc.functionHeadings.mapM doc.leafText = .ok generated.signatures ∧
      (∀ signature ∈ generated.signatures, ∃ rest, signature = functionOpening ++ rest) ∧
      OccurInOrder generated.signatures generated.source) ∧
    doc.functionHeadings.Sublist (doc.below root) ∧ doc.functionHeadings.Nodup ∧
    (∀ id, doc.below id = (doc.children id).flatMap fun child => child :: doc.below child) ∧
    (∀ id, id ∈ doc.functionHeadings ↔
      doc.hasKind .heading id ∧ doc.firstLeafText? id = some functionOpening) ∧
    ∀ id kind text, doc.kind? id = some kind → kind.isLeaf = false →
      doc.firstLeafText? id = some text → ∃ rest, doc.leafText id = .ok (text ++ rest) := by
  have headings : ∀ id, id ∈ doc.functionHeadings ↔
      doc.hasKind .heading id ∧ doc.firstLeafText? id = some functionOpening := by
    intro id
    rw [built.mem_functionHeadings, opensFunction, Bool.and_eq_true, beq_iff_eq]
  have placed : ∀ id ∈ doc.functionHeadings, doc.Placed id := fun id member =>
    built.placed (lt_size_of_hasKind ((headings id).mp member).1)
  obtain ⟨generated, emitted, order, texts⟩ := built.signatures_eq
  refine ⟨⟨generated, emitted, ?_, ?_, order⟩, List.filter_sublist,
    (built.below_nodup root).filter _, built.below_eq_flatMap, headings,
    fun _ _ _ => built.leafText_of_firstLeafText?⟩
  · rw [built.grown.mapM_leafText placed, texts]
  · intro signature member
    rw [texts] at member
    obtain ⟨id, heading, rfl⟩ := List.mem_map.mp member
    obtain ⟨kind, first⟩ := (headings id).mp heading
    obtain ⟨rest, begins⟩ := built.leafText_of_firstLeafText? (eq_of_beq kind) rfl first
    rw [built.grown.leafText_eq (placed id heading)] at begins
    exact ⟨rest, Except.ok.inj begins⟩

def headed : Document :=
  ofOutlines [
    .heading 2 [.branch .strong [.leaf .text "func ".toList], .leaf .codeSpan "A".toList,
      .heading 3 [.leaf .text "func ".toList, .leaf .codeSpan "B".toList]],
    .heading 2 [.leaf .text "func A".toList],
    .branch .blockQuote [.heading 2 [.leaf .text "func ".toList, .leaf .codeSpan "A".toList]]]

theorem signatures_of_headings_headed : Built headed ∧ headed.functionHeadings = [1, 5, 11] ∧
    (∃ rest, headed.leafText 1 = .ok ("func " ++ rest)) ∧
    OccurInOrder ["func Afunc B", "func B", "func A"] "func Afunc Bfunc Bfunc A" := by
  have built : Built headed := built_ofOutlines _
  have known : headed.emit =
      .ok ⟨"func Afunc Bfunc Bfunc A", ["func Afunc B", "func B", "func A"]⟩ := by decide
  obtain ⟨⟨generated, emitted, -, -, order⟩, -, -, -, -, begins⟩ := signatures_of_headings built
  obtain rfl := Except.ok.inj (known.symm.trans emitted)
  exact ⟨built, by decide, begins 1 .heading "func " (by decide) rfl (by decide), order⟩

end Document

end Tangle
