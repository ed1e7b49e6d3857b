import Tangle.Proofs.Document.Planting
import Tangle.Proofs.Emission.Agreement

/-!
The brackets of a generated source are nested. A group opens and closes around one list item; a
body opens at one code block and closes at another among its siblings. Lists of siblings below
other nodes keep their brackets to themselves, so what a scan leaves open at any point is at most
the body of the function it stands in, and the chunk that closes it is still ahead.
-/

namespace Tangle

inductive Bracket where
  | round
  | curly
  deriving DecidableEq, Repr

inductive Mark where
  | opening (bracket : Bracket)
  | closing (bracket : Bracket)
  deriving DecidableEq, Repr

def Mark.ofChar? : Char → Option Mark
  | '(' => some (.opening .round)
  | ')' => some (.closing .round)
  | '{' => some (.opening .curly)
  | '}' => some (.closing .curly)
  | _ => none

def Piece.isDelimiter : Piece → Bool
  | openGroup | closeGroup | noParameters | noGroups | openBody | closeBody => true
  | prologue _ | signature _ | separator | parameter _ | result _ | chunk _ => false

/-- The brackets of a delimiter; brackets inside the texts of a document do not count. -/
def Piece.marks (piece : Piece) : List Mark :=
  if piece.isDelimiter then piece.text.toList.filterMap Mark.ofChar? else []

theorem Piece.marks_delimiters :
    closeGroup.marks = [.closing .round] ∧ noGroups.marks = [.opening .round, .closing .round] ∧
      openBody.marks = [.opening .curly] ∧ closeBody.marks = [.closing .curly] :=
  ⟨rfl, rfl, rfl, rfl⟩

theorem Piece.marks_texts (body : String) : (prologue body).marks = [] ∧ (chunk body).marks = [] :=
  ⟨rfl, rfl⟩

def marks (pieces : List Piece) : List Mark := pieces.flatMap Piece.marks

/-- Words in which each bracket is closed by one of its kind and pairs do not cross. -/
inductive Nested : List Mark → Prop where
  | nil : Nested []
  | wrap (bracket : Bracket) {inner rest : List Mark} (inside : Nested inner)
      (after : Nested rest) : Nested (.opening bracket :: inner ++ .closing bracket :: rest)

theorem Nested.append {word more : List Mark} (first : Nested word) (second : Nested more) :
    Nested (word ++ more) := by
  induction first with
  | nil => exact second
  | @wrap bracket inner rest inside _ _ ih =>
    rw [List.append_assoc, List.cons_append]
    exact .wrap bracket inside ih

theorem Nested.pair (bracket : Bracket) : Nested [.opening bracket, .closing bracket] :=
  .wrap bracket .nil .nil

@[simp] theorem marks_nil : marks [] = [] := rfl

@[simp] theorem marks_cons (piece : Piece) (pieces : List Piece) :
    marks (piece :: pieces) = piece.marks ++ marks pieces := rfl

@[simp] theorem marks_append (pieces more : List Piece) :
    marks (pieces ++ more) = marks pieces ++ marks more := by
  unfold marks
  rw [List.flatMap_append]

def Completes (pending : Bool) (word : List Mark) : Prop :=
  if pending then
    ∃ inner rest, word = inner ++ .closing .curly :: rest ∧ Nested inner ∧ Nested rest
  else Nested word

namespace Completes

variable {pending : Bool} {word more : List Mark}

theorem prepend (first : Nested word) (second : Completes pending more) :
    Completes pending (word ++ more) := by
  cases pending with
  | false => exact first.append second
  | true =>
    obtain ⟨inner, rest, rfl, inside, after⟩ := second
    exact ⟨word ++ inner, rest, by rw [List.append_assoc], first.append inside, after⟩

theorem opening (closes : Completes true word) : Completes false (.opening .curly :: word) := by
  obtain ⟨inner, rest, rfl, inside, after⟩ := closes
  exact Nested.wrap .curly inside after

theorem closing (closes : Completes false word) : Completes true (.closing .curly :: word) :=
  ⟨[], word, rfl, .nil, closes⟩

end Completes

namespace Outline

/-- Whether the body of a function is open before the rest of some siblings. -/
def pending (passed : Passed) (rest : List Outline) : Bool :=
  passed.topic == some .function && passed.chunk && chunkAhead rest

theorem marks_entryPieces (passed : Passed) (group : Group) (outline : Outline) :
    marks (entryPieces passed group outline) = [] := by
  unfold entryPieces
  cases outline.findDescendant? .codeSpan with
  | none => rfl
  | some code => split_ifs <;> cases group <;> rfl

theorem marks_openingPieces (passed : Passed) (group : Group) :
    ∃ word, marks (openingPieces passed group) = word ++ [.opening .round] ∧ Nested word := by
  cases group with
  | parameters => exact ⟨[], rfl, .nil⟩
  | returns =>
    unfold openingPieces
    split_ifs
    · exact ⟨[.opening .round, .closing .round], rfl, .pair .round⟩
    · exact ⟨[], rfl, .nil⟩

theorem marks_itemPieces (outer : Option Group) (passed : Passed) (outline : Outline) :
    ∃ word, Nested word ∧ marks (itemPieces outer passed outline) =
      word ++ if outline.group?.isSome then [.opening .round] else [] := by
  have entries : ∀ group, marks (if outer = some group then entryPieces passed group outline
      else []) = [] := by
    intro group
    split_ifs
    · exact marks_entryPieces passed group outline
    · rfl
  unfold itemPieces Group.all
  simp only [List.flatMap_cons, List.flatMap_nil, List.append_nil, marks_append, entries]
  rcases outline.group? with - | - | -
  · exact ⟨[], .nil, rfl⟩
  · exact ⟨[], .nil, rfl⟩
  · obtain ⟨word, same, nested⟩ := marks_openingPieces passed .returns
    exact ⟨word, nested, by simpa using same⟩

theorem nested_scan {outline : Outline} (other : outline.kind ≠ .codeBlock) (outer : Option Group)
    (passed : Passed) (ahead : Bool)
    (below : ∀ outer, Nested (marks (scanAll outer {} outline.children))) :
    Nested (marks (outline.scan outer passed ahead)) := by
  rw [scan_eq, marks_append, marks_append]
  have inner := below (outline.around outer)
  by_cases item : outline.kind = .listItem
  · obtain ⟨word, nested, opened⟩ := marks_itemPieces outer passed outline
    rw [enterPieces, item, opened, exitPieces]
    cases outline.group? with
    | none => simpa using nested.append inner
    | some group => simpa [Piece.marks_delimiters] using nested.append (.wrap .round inner .nil)
  · have closed : outline.group? = none := by rw [group?, if_neg item]
    have entered : marks (enterPieces outer passed ahead outline) = [] := by
      unfold enterPieces
      cases kind : outline.kind with
      | codeBlock => exact absurd kind other
      | listItem => exact absurd kind item
      | heading => split_ifs <;> rfl
      | _ => rfl
    rw [entered, exitPieces, closed]
    simpa using inner

theorem completes_codePieces {passed : Passed} {ahead : Bool} {more : List Mark} (body : String)
    (closes : Completes (passed.topic == some .function && ahead) more) :
    Completes (passed.topic == some .function && passed.chunk)
      (marks (codePieces passed ahead body) ++ more) := by
  by_cases function : passed.topic = some .function
  · rw [beq_iff_eq.mpr function, Bool.true_and] at closes ⊢
    have rest : Completes true (marks (if ahead then [] else [.closeBody]) ++ more) := by
      cases ahead with
      | true => exact closes
      | false => exact closes.closing
    rw [codePieces, function]
    cases passed.chunk with
    | true => simpa [Piece.marks_texts] using rest
    | false =>
      cases passed.groups with
      | true => simpa [Piece.marks_delimiters, Piece.marks_texts] using rest.opening
      | false =>
        simpa [Piece.marks_delimiters, Piece.marks_texts] using
          Completes.prepend (.pair .round) rest.opening
  · rw [beq_eq_false_iff_ne.mpr function, Bool.false_and] at closes ⊢
    have silent : marks (codePieces passed ahead body) = [] := by
      unfold codePieces
      rcases topic : passed.topic with - | - | - | - <;>
        simp_all [Piece.marks_texts]
    rw [silent]
    exact closes

/-- One step of a scan: what is open before a node is what is open after it and what it opens. -/
theorem completes_cons {outline : Outline} {rest : List Outline} (outer : Option Group)
    (passed : Passed) (below : ∀ outer, Nested (marks (scanAll outer {} outline.children)))
    (later : Completes (pending (passed.pass outline) rest)
      (marks (scanAll outer (passed.pass outline) rest))) :
    Completes (pending passed (outline :: rest))
      (marks (scanAll outer passed (outline :: rest))) := by
  rw [scanAll, marks_append]
  by_cases code : outline.kind = .codeBlock
  · have closed : outline.group? = none := by rw [group?, if_neg (by rw [code]; decide)]
    have chunk : passed.pass outline = { passed with chunk := true } := by rw [Passed.pass, code]
    rw [scan_eq, marks_append, marks_append, enterPieces, exitPieces, closed, code,
      List.append_assoc, List.append_assoc, pending, chunkAhead, code, Bool.and_true]
    rw [chunk, pending, Bool.and_true] at later
    apply completes_codePieces
    simpa [chunk] using Completes.prepend (below _) later
  · have same : pending passed (outline :: rest) = pending (passed.pass outline) rest := by
      unfold pending Passed.pass
      rw [chunkAhead]
      cases kind : outline.kind <;> simp_all
    rw [same]
    exact .prepend (nested_scan code outer passed _ below) later

mutual

theorem nested_scanAll_children (outline : Outline) (outer : Option Group) :
    Nested (marks (scanAll outer {} outline.children)) := by
  cases outline with
  | node label children => exact completes_scanAll children outer {}

theorem completes_scanAll (outlines : List Outline) (outer : Option Group) (passed : Passed) :
    Completes (pending passed outlines) (marks (scanAll outer passed outlines)) := by
  cases outlines with
  | nil =>
    rw [pending, chunkAhead, Bool.and_false]
    exact Nested.nil
  | cons outline rest =>
    exact completes_cons outer passed (nested_scanAll_children outline)
      (completes_scanAll rest outer (passed.pass outline))

end

end Outline

/-- The brackets that a grown document puts into its source are nested. -/
theorem Document.brackets_nested {doc : Document} (grown : Grown doc) :
    ∃ pieces, doc.pieces = .ok pieces ∧ doc.emit = .ok (Generated.ofPieces pieces) ∧
      Nested (marks pieces) := by
  refine ⟨_, grown.pieces_eq_scanAll, grown.emit_eq_scanAll, ?_⟩
  exact Outline.completes_scanAll doc.outline.children none {}

/-- A code block may have children, so a group can stand inside the body that it opens. -/
def Document.groupInBody : Document :=
  ofOutlines [.heading 1 [.leaf .text "func ".toList, .leaf .codeSpan "F".toList],
    .node { kind := .codeBlock, literal := some "a\n" }
      [.branch .listItem [.branch .paragraph [.leaf .text "returns".toList]]],
    .leaf .codeBlock "b\n".toList]

theorem Document.brackets_nested_groupInBody :
    Grown groupInBody ∧
      groupInBody.pieces = .ok [.signature "func F", .noGroups, .openBody, .chunk "a\n",
        .noParameters, .openGroup, .closeGroup, .chunk "b\n", .closeBody] ∧
      Nested [.opening .round, .closing .round, .opening .curly, .opening .round, .closing .round,
        .opening .round, .closing .round, .closing .curly] := by
  have grown : Grown groupInBody := grown_ofOutlines _
  have known : groupInBody.pieces = .ok [.signature "func F", .noGroups, .openBody, .chunk "a\n",
      .noParameters, .openGroup, .closeGroup, .chunk "b\n", .closeBody] := by decide
  obtain ⟨pieces, given, -, nested⟩ := brackets_nested grown
  obtain rfl := Except.ok.inj (given.symm.trans known)
  exact ⟨grown, known, nested⟩

end Tangle
