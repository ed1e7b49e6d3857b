import Tangle.Proofs.Emission.Narrative
import Tangle.Proofs.Emission.Sections

/-!
Function declarations, the outlines that describe them and the source they stand for. A
declaration is described by a heading with its name, one list with its groups if it has any, and
its body in chunks with prose around them. The scan of such outlines is worked out part by part,
entries first, and a document of declarations gives their sources one after the other.
-/

namespace Tangle

namespace Outline

theorem leafText_leaf {kind : Kind} (own : kind.isLeaf) (text : String) :
    (leaf kind text.toList).leafText = text := by
  simp [leaf, leafText, leafTexts, Label.ownText, own]

theorem itemPieces_of_entry {outline : Outline} (opens : outline.group? = none) (group : Group)
    (passed : Passed) :
    itemPieces (some group) passed outline = entryPieces passed group outline := by
  unfold itemPieces Group.all
  cases group <;> simp [opens]

theorem itemPieces_of_group {outline : Outline} {group : Group}
    (opens : outline.group? = some group) (passed : Passed) :
    itemPieces none passed outline = openingPieces passed group := by
  unfold itemPieces Group.all
  cases group <;> simp [opens]

theorem scan_list (items : List Outline) (outer : Option Group) (passed : Passed) (ahead : Bool) :
    (branch .list items).scan outer passed ahead = scanAll outer {} items := by
  have entered : enterPieces outer passed ahead (.branch .list items) = [] := rfl
  have left : (branch .list items).exitPieces = [] := rfl
  rw [scan_eq, entered, left, List.nil_append, List.append_nil]
  rfl

end Outline

namespace Declaration

/-- A parameter or a result, and what is said about it. A text that is the label of a group would
open that group in place of an entry. -/
structure Entry where
  text : String
  remark : String
  plain : ∀ group : Group, text ≠ group.label := by rintro (_ | _) <;> decide

structure Prose where
  outline : Outline
  narrative : outline.isNarrative

inductive Part where
  | prose (words : Prose)
  | chunk (body : String)

end Declaration

structure Declaration where
  level : Nat
  name : String
  parameters : Option (List Declaration.Entry)
  returns : Option (List Declaration.Entry)
  body : List Declaration.Part

namespace Declaration

def Entry.outline (entry : Entry) : Outline :=
  .branch .listItem [.branch .paragraph
    [.leaf .codeSpan entry.text.toList, .leaf .text entry.remark.toList]]

def groupOutline (group : Group) (entries : List Entry) : Outline :=
  .branch .listItem [.branch .paragraph [.leaf .text group.label.toList],
    .branch .list (entries.map Entry.outline)]

def Part.outline : Part → Outline
  | prose words => words.outline
  | chunk body => .leaf .codeBlock body.toList

def Part.chunk? : Part → Option String
  | prose _ => none
  | chunk body => some body

def headingOutline (decl : Declaration) : Outline :=
  .heading decl.level [.leaf .text "func ".toList, .leaf .codeSpan decl.name.toList]

def groupOutlines (decl : Declaration) : List Outline :=
  (decl.parameters.map (groupOutline .parameters)).toList ++
    (decl.returns.map (groupOutline .returns)).toList

def listOutlines (decl : Declaration) : List Outline :=
  if decl.groupOutlines.isEmpty then [] else [.branch .list decl.groupOutlines]

def outlines (decl : Declaration) : List Outline :=
  decl.headingOutline :: (decl.listOutlines ++ decl.body.map Part.outline)

def signature (decl : Declaration) : String := "func " ++ decl.name

def chunks (parts : List Part) : List String := parts.filterMap Part.chunk?

def Entry.source (entry : Entry) : Group → String
  | .parameters => entry.text
  | .returns => entry.text ++ " "

def entriesSource (group : Group) (entries : List Entry) : String :=
  "( " ++ ", ".intercalate (entries.map (·.source group)) ++ ") "

/-- Without parameters an empty list stands before the results. -/
def groupSource (decl : Declaration) : String :=
  decl.parameters.elim "" (entriesSource .parameters) ++
    decl.returns.elim "" fun returns =>
      (if decl.parameters.isNone then "() " else "") ++ entriesSource .returns returns

def bodySource (decl : Declaration) : String :=
  if chunks decl.body = [] then ""
  else
    (if decl.parameters.isNone && decl.returns.isNone then "()" else "") ++
      String.ofList [' ', '{', '\n'] ++ String.join (chunks decl.body) ++
        String.ofList ['}', '\n', '\n']

def source (decl : Declaration) : String := decl.signature ++ decl.groupSource ++ decl.bodySource

def entriesPieces (group : Group) : List Entry → List Piece
  | [] => []
  | first :: rest => Outline.entryPiece first.text group ::
      rest.flatMap fun entry => [.separator, Outline.entryPiece entry.text group]

def groupPieces (group : Group) (entries : List Entry) : List Piece :=
  .openGroup :: entriesPieces group entries ++ [.closeGroup]

def groupsPieces (decl : Declaration) : List Piece :=
  decl.parameters.elim [] (groupPieces .parameters) ++
    decl.returns.elim [] fun returns =>
      (if decl.parameters.isNone then [.noParameters] else []) ++ groupPieces .returns returns

def chunksPieces (opening : List Piece) (bodies : List String) : List Piece :=
  if bodies = [] then [] else opening ++ bodies.map .chunk ++ [.closeBody]

def bodyOpening (groups : Bool) : List Piece :=
  if groups then [.openBody] else [.noGroups, .openBody]

def hasGroups (decl : Declaration) : Bool := decl.parameters.isSome || decl.returns.isSome

def pieces (decl : Declaration) : List Piece :=
  .signature decl.signature :: (decl.groupsPieces ++
    chunksPieces (bodyOpening decl.hasGroups) (chunks decl.body))

namespace Entry

variable (entry : Entry)

theorem group?_outline : entry.outline.group? = none := by
  have first : entry.outline.children.head?.bind Outline.firstLeafText? =
      some (String.ofList entry.text.toList) := rfl
  rw [Outline.group?_of_firstLeafText? rfl first, String.ofList_toList]
  cases opened : Group.ofLabel? entry.text with
  | none => rfl
  | some group => exact absurd (Group.ofLabel?_eq_some.mp opened) (entry.plain group)

theorem findDescendant?_outline :
    entry.outline.findDescendant? .codeSpan = some (.leaf .codeSpan entry.text.toList) := rfl

theorem scan_outline (group : Group) (passed : Passed) (ahead : Bool) :
    entry.outline.scan (some group) passed ahead =
      (if passed.item = some true then [.separator] else []) ++
        [Outline.entryPiece entry.text group] := by
  have entered : Outline.enterPieces (some group) passed ahead entry.outline =
      Outline.entryPieces passed group entry.outline :=
    Outline.itemPieces_of_entry entry.group?_outline group passed
  have text : (Outline.leaf .codeSpan entry.text.toList).leafText = entry.text :=
    Outline.leafText_leaf rfl entry.text
  have below : Outline.areNarrative entry.outline.children := rfl
  rw [Outline.scan_eq, entered, Outline.scanAll_of_areNarrative _ below, Outline.exitPieces,
    group?_outline, Outline.entryPieces, findDescendant?_outline]
  simp [text]

theorem pass_outline (passed : Passed) :
    passed.pass entry.outline = { passed with item := some true } := rfl

end Entry

theorem scanAll_further_entries (group : Group) (passed : Passed) (item : passed.item = some true)
    (entries : List Entry) :
    Outline.scanAll (some group) passed (entries.map Entry.outline) =
      entries.flatMap fun entry => [.separator, Outline.entryPiece entry.text group] := by
  induction entries generalizing passed with
  | nil => rfl
  | cons entry rest ih =>
    rw [List.map_cons, Outline.scanAll, entry.scan_outline, entry.pass_outline, ih _ rfl, if_pos item,
      List.flatMap_cons]
    rfl

theorem scanAll_entries (group : Group) (entries : List Entry) :
    Outline.scanAll (some group) {} (entries.map Entry.outline) = entriesPieces group entries := by
  cases entries with
  | nil => rfl
  | cons first rest =>
    rw [List.map_cons, Outline.scanAll, first.scan_outline, first.pass_outline,
      scanAll_further_entries group _ rfl]
    rfl

theorem group?_groupOutline (group : Group) (entries : List Entry) :
    (groupOutline group entries).group? = some group := by
  have first : (groupOutline group entries).children.head?.bind Outline.firstLeafText? =
      some (String.ofList group.label.toList) := rfl
  rw [Outline.group?_of_firstLeafText? rfl first, String.ofList_toList]
  exact Group.ofLabel?_eq_some.mpr rfl

/-- The search for a code span goes down into the label of a group and does not come back. -/
theorem pass_groupOutline (group : Group) (entries : List Entry) (passed : Passed) :
    passed.pass (groupOutline group entries) = { passed with item := some false } := rfl

theorem scan_groupOutline (group : Group) (entries : List Entry) (passed : Passed)
    (ahead : Bool) : (groupOutline group entries).scan none passed ahead =
      Outline.openingPieces passed group ++ entriesPieces group entries ++ [.closeGroup] := by
  have opens := group?_groupOutline group entries
  have entered : Outline.enterPieces none passed ahead (groupOutline group entries) =
      Outline.openingPieces passed group := Outline.itemPieces_of_group opens passed
  have inside : (groupOutline group entries).around none = some group := opens
  have below : Outline.scanAll (some group) {} (groupOutline group entries).children =
      entriesPieces group entries := by
    have label : (Outline.branch .paragraph [.leaf .text group.label.toList]).isNarrative := rfl
    change Outline.scanAll (some group) {} [_, _] = _
    rw [Outline.scanAll_cons_of_isNarrative label, Outline.scanAll, Outline.scan_list, scanAll_entries]
    exact List.append_nil _
  rw [Outline.scan_eq, entered, inside, below, Outline.exitPieces, opens]
  rfl

/-- An item of results sees the item of parameters before it, and only without one does it make up
for parameters. -/
theorem scanAll_groupOutlines (decl : Declaration) :
    Outline.scanAll none {} decl.groupOutlines = decl.groupsPieces := by
  unfold groupOutlines groupsPieces groupPieces
  cases decl.parameters <;> cases decl.returns <;>
    simp [Outline.scanAll, scan_groupOutline, pass_groupOutline, Outline.openingPieces]

theorem chunkAhead_body (parts : List Part) :
    Outline.chunkAhead (parts.map Part.outline) = !(chunks parts).isEmpty := by
  induction parts with
  | nil => rfl
  | cons part rest ih =>
    cases part with
    | prose words =>
      exact (Outline.chunkAhead_of_isNarrative words.narrative _).trans ih
    | chunk body => rfl

theorem scan_chunk (body : String) (passed : Passed) (ahead : Bool) :
    (Part.chunk body).outline.scan none passed ahead = Outline.codePieces passed ahead body := by
  have entered : Outline.enterPieces none passed ahead (Part.chunk body).outline =
      Outline.codePieces passed ahead (String.ofList body.toList) := rfl
  rw [Outline.scan_eq, entered, String.ofList_toList]
  simp [Part.outline, Outline.leaf, Outline.scanAll, Outline.exitPieces, Outline.group?]

theorem scanAll_body (parts : List Part) (passed : Passed)
    (function : passed.topic = some .function) :
    Outline.scanAll none passed (parts.map Part.outline) =
      chunksPieces (if passed.chunk then [] else bodyOpening passed.groups) (chunks parts) := by
  induction parts generalizing passed with
  | nil => rfl
  | cons part rest ih =>
    cases part with
    | prose words =>
      exact (Outline.scanAll_cons_of_isNarrative words.narrative _ _ _).trans (ih passed function)
    | chunk body =>
      have later : Outline.scanAll none (passed.pass (Part.chunk body).outline)
          (rest.map Part.outline) = chunksPieces [] (chunks rest) :=
        ih { passed with chunk := true } function
      have found : chunks (.chunk body :: rest) = body :: chunks rest := rfl
      rw [List.map_cons, Outline.scanAll, later, scan_chunk, chunkAhead_body, found,
        Outline.codePieces, function]
      cases chunks rest <;> simp [chunksPieces, bodyOpening]

theorem isEmpty_groupOutlines (decl : Declaration) :
    decl.groupOutlines.isEmpty = !decl.hasGroups := by
  unfold groupOutlines hasGroups
  cases decl.parameters <;> cases decl.returns <;> rfl

theorem opensGroup_list (decl : Declaration) :
    (Outline.branch .list decl.groupOutlines).opensGroup = decl.hasGroups := by
  unfold Outline.opensGroup Outline.branch groupOutlines hasGroups
  cases decl.parameters <;> cases decl.returns <;> simp [group?_groupOutline]

/-- The groups are written where their list stands, and the body knows whether they were. -/
theorem scanAll_below_heading (decl : Declaration) :
    Outline.scanAll none { topic := some .function }
        (decl.listOutlines ++ decl.body.map Part.outline) =
      decl.groupsPieces ++ chunksPieces (bodyOpening decl.hasGroups) (chunks decl.body) := by
  unfold listOutlines
  rw [isEmpty_groupOutlines]
  cases groups : decl.hasGroups with
  | true =>
    have passed : Passed.pass { topic := some .function } (.branch .list decl.groupOutlines) =
        { topic := some .function, groups := decl.hasGroups } := by
      rw [← opensGroup_list]
      rfl
    rw [Bool.not_true, if_neg Bool.false_ne_true, List.cons_append, List.nil_append,
      Outline.scanAll, Outline.scan_list, scanAll_groupOutlines, passed, scanAll_body _ _ rfl, groups]
    rfl
  | false =>
    have empty : decl.groupOutlines = [] := by
      rw [← List.isEmpty_iff, isEmpty_groupOutlines, groups, Bool.not_false]
    rw [Bool.not_false, if_pos rfl, List.nil_append, scanAll_body _ _ rfl,
      ← scanAll_groupOutlines, empty]
    rfl

theorem scan_headingOutline (decl : Declaration) (ahead : Bool) :
    decl.headingOutline.scan none {} ahead = [.signature decl.signature] := by
  have text : decl.headingOutline.leafText = decl.signature := by
    simp [headingOutline, Outline.heading, Outline.leaf, Outline.leafText, Outline.leafTexts,
      Label.ownText, Kind.isLeaf, signature]
  have entered : Outline.enterPieces none {} ahead decl.headingOutline =
      [.signature decl.headingOutline.leafText] := rfl
  have below : Outline.areNarrative decl.headingOutline.children := rfl
  have left : decl.headingOutline.exitPieces = [] := rfl
  rw [Outline.scan_eq, entered, text, left, Outline.scanAll_of_areNarrative _ below]
  rfl

theorem scanAll_outlines (decl : Declaration) :
    Outline.scanAll none {} decl.outlines = decl.pieces := by
  have passed : Passed.pass {} decl.headingOutline = { topic := some .function } := rfl
  rw [outlines, Outline.scanAll, scan_headingOutline, passed, scanAll_below_heading]
  rfl

theorem opensSection_outlines (decls : List Declaration) :
    Outline.OpensSection (decls.flatMap outlines) := by
  intro first head
  cases decls with
  | nil => cases head
  | cons decl rest =>
    obtain rfl : decl.headingOutline = first := Option.some.inj head
    rfl

theorem scanAll_declarations (decls : List Declaration) :
    Outline.scanAll none {} (decls.flatMap outlines) = decls.flatMap pieces := by
  induction decls with
  | nil => rfl
  | cons decl rest ih =>
    rw [List.flatMap_cons, List.flatMap_cons, Outline.scanAll_append (opensSection_outlines rest),
      scanAll_outlines, ih]

theorem text_entryPiece (entry : Entry) (group : Group) :
    (Outline.entryPiece entry.text group).text = entry.source group := by
  cases group <;> rfl

theorem signature?_entryPiece (text : String) (group : Group) :
    (Outline.entryPiece text group).signature? = none := by
  cases group <;> rfl

theorem ofPieces_entriesPieces (group : Group) (entries : List Entry) :
    Generated.ofPieces (entriesPieces group entries) =
      ⟨", ".intercalate (entries.map (·.source group)), []⟩ := by
  cases entries with
  | nil => rfl
  | cons first rest =>
    induction rest generalizing first with
    | nil => simp [entriesPieces, text_entryPiece, signature?_entryPiece]
    | cons second rest ih =>
      have unfolded : entriesPieces group (first :: second :: rest) =
          Outline.entryPiece first.text group :: .separator ::
            entriesPieces group (second :: rest) := rfl
      have separator : Piece.separator.text = ", " ∧ Piece.separator.signature? = none :=
        ⟨rfl, rfl⟩
      rw [unfolded, Generated.ofPieces_cons, Generated.ofPieces_cons, ih second]
      simp [text_entryPiece, signature?_entryPiece, separator, String.append_assoc]

theorem ofPieces_groupPieces (group : Group) (entries : List Entry) :
    Generated.ofPieces (groupPieces group entries) = ⟨entriesSource group entries, []⟩ := by
  simp [groupPieces, ofPieces_entriesPieces, entriesSource, Piece.text, Piece.signature?,
    String.append_assoc]

theorem ofPieces_groupsPieces (decl : Declaration) :
    Generated.ofPieces decl.groupsPieces = ⟨decl.groupSource, []⟩ := by
  unfold groupsPieces groupSource
  cases decl.parameters <;> cases decl.returns <;>
    simp [ofPieces_groupPieces, Piece.text, Piece.signature?]

theorem ofPieces_chunks (bodies : List String) :
    Generated.ofPieces (bodies.map .chunk) = ⟨String.join bodies, []⟩ := by
  induction bodies with
  | nil => rfl
  | cons body rest ih => simp [ih, Piece.text, Piece.signature?]

theorem ofPieces_bodyOpening (decl : Declaration) :
    Generated.ofPieces (bodyOpening decl.hasGroups) =
      ⟨(if decl.parameters.isNone && decl.returns.isNone then "()" else "") ++ bodyStart, []⟩ := by
  unfold hasGroups
  cases decl.parameters <;> cases decl.returns <;> rfl

theorem ofPieces_chunksPieces (decl : Declaration) :
    Generated.ofPieces (chunksPieces (bodyOpening decl.hasGroups) (chunks decl.body)) =
      ⟨decl.bodySource, []⟩ := by
  unfold chunksPieces bodySource
  by_cases none : chunks decl.body = []
  · rw [if_pos none, if_pos none, Generated.ofPieces_nil]
  · rw [if_neg none, if_neg none, Generated.ofPieces_append, Generated.ofPieces_append,
      ofPieces_bodyOpening, ofPieces_chunks]
    rfl

theorem ofPieces_pieces (decl : Declaration) :
    Generated.ofPieces decl.pieces = ⟨decl.source, [decl.signature]⟩ := by
  rw [pieces, Generated.ofPieces_cons, Generated.ofPieces_append, ofPieces_groupsPieces,
    ofPieces_chunksPieces, source, String.append_assoc]
  rfl

theorem ofPieces_declarations (decls : List Declaration) :
    Generated.ofPieces (decls.flatMap pieces) =
      ⟨String.join (decls.map source), decls.map signature⟩ := by
  induction decls with
  | nil => rfl
  | cons decl rest ih =>
    rw [List.flatMap_cons, Generated.ofPieces_append, ofPieces_pieces, ih, List.map_cons,
      List.map_cons, String.join_cons]
    rfl

end Declaration

/-- A document of declarations gives their sources and their signatures in order. -/
theorem Document.emit_of_declarations (decls : List Declaration) {doc : Document}
    (grown : Grown doc) (holds : doc.outline.children = decls.flatMap Declaration.outlines) :
    doc.emit =
      .ok ⟨String.join (decls.map Declaration.source), decls.map Declaration.signature⟩ := by
  rw [grown.emit_eq_scanAll, holds, Declaration.scanAll_declarations,
    Declaration.ofPieces_declarations]

def Declaration.divideThenRun : List Declaration :=
  [{ level := 2
     name := "Divide"
     parameters := some
       [{ text := "a int", remark := " is shared out" }, { text := "b int", remark := "" }]
     returns := some [{ text := "int", remark := "" }, { text := "error", remark := " if b is 0" }]
     body := [.chunk "q := a / b\n", .prose ⟨.branch .paragraph [.leaf .text "then".toList], rfl⟩,
       .chunk "return q, nil\n"] },
    { level := 3, name := "Run", parameters := none, returns := none
      body := [.chunk "Divide(1, 1)\n"] }]

theorem Document.emit_of_declarations_divide :
    Grown (ofOutlines (Declaration.divideThenRun.flatMap Declaration.outlines)) ∧
      (ofOutlines (Declaration.divideThenRun.flatMap Declaration.outlines)).emit =
        .ok ⟨"func Divide( a int, b int) ( int , error ) " ++ bodyStart ++
            "q := a / b\nreturn q, nil\n" ++ bodyEnd ++
          "func Run()" ++ bodyStart ++ "Divide(1, 1)\n" ++ bodyEnd, ["func Divide", "func Run"]⟩ := by
  refine ⟨grown_ofOutlines _, ?_⟩
  rw [emit_of_declarations Declaration.divideThenRun (grown_ofOutlines _)
    (by rw [outline_ofOutlines, Outline.children_node])]
  rfl

end Tangle
