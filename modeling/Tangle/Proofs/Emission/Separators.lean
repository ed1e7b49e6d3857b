import Mathlib.Data.List.ReduceOption
import Tangle.Proofs.Emission.Bodies
import Tangle.Proofs.Emission.Declaration
import Tangle.Proofs.Markdown.Schema

/-!
Separators between the entries of a group. An entry is set off from the list item right before it
if that one is an entry too, so the entries come out in runs: separators stand within each run of
entries that follow one another directly, and none stands across an item without a code span.
-/

namespace Tangle

open Outline (entryPiece)

def separated (group : Group) (texts : List (Option String)) : List Piece :=
  (texts.reduceOption.map (entryPiece · group)).intersperse .separator

/-- The entries of a group in runs, with separators only within each run. -/
def separatedRuns (group : Group) (texts : List (Option String)) : List Piece :=
  (texts.splitOnP Option.isNone).flatMap (separated group)

/-- The pieces of a list of items, after an item that was an entry or was none. -/
def spaced (group : Group) : Bool → List (Option String) → List Piece
  | _, [] => []
  | _, none :: rest => spaced group false rest
  | follows, some text :: rest =>
    (if follows then [.separator] else []) ++ entryPiece text group :: spaced group true rest

def further (group : Group) (texts : List (Option String)) : List Piece :=
  texts.reduceOption.flatMap fun text => [.separator, entryPiece text group]

section Lists

variable (group : Group)

theorem further_some (text : String) (rest : List (Option String)) :
    further group (some text :: rest) =
      .separator :: entryPiece text group :: further group rest := by
  rw [further, List.reduceOption_cons_of_some, List.flatMap_cons]
  rfl

theorem separated_some (text : String) (rest : List (Option String)) :
    separated group (some text :: rest) = entryPiece text group :: further group rest := by
  unfold separated further
  rw [List.reduceOption_cons_of_some, List.map_cons]
  induction rest.reduceOption generalizing text with
  | nil => rfl
  | cons next rest ih =>
    rw [List.map_cons, List.intersperse_cons_cons, ih, List.flatMap_cons]
    rfl

theorem separatedRuns_none (rest : List (Option String)) :
    separatedRuns group (none :: rest) = separatedRuns group rest := by
  rw [separatedRuns, List.splitOnP_cons_eq_if_modifyHead, if_pos Option.isNone_none,
    List.flatMap_cons]
  rfl

theorem separatedRuns_some (text : String) (rest : List (Option String)) :
    separatedRuns group (some text :: rest) = entryPiece text group ::
      ((if rest.head?.any Option.isSome then [.separator] else []) ++
        separatedRuns group rest) := by
  have parted : (some text :: rest).splitOnP Option.isNone =
      (rest.splitOnP Option.isNone).modifyHead (some text :: ·) :=
    List.splitOnP_cons_eq_if_modifyHead ..
  unfold separatedRuns
  rw [parted]
  cases rest with
  | nil => simp [separated]
  | cons next rest =>
    rw [List.splitOnP_cons_eq_if_modifyHead]
    cases next with
    | none => simp [separated]
    | some next =>
      obtain ⟨run, others, runs⟩ :=
        List.exists_cons_of_ne_nil (List.splitOnP_ne_nil Option.isNone rest)
      simp [runs, separated_some, further_some]

theorem spaced_follows (texts : List (Option String)) : spaced group true texts =
    (if texts.head?.any Option.isSome then [.separator] else []) ++ spaced group false texts := by
  rcases texts with - | ⟨- | text, rest⟩ <;> simp [spaced]

theorem spaced_eq_separatedRuns (texts : List (Option String)) :
    spaced group false texts = separatedRuns group texts := by
  induction texts with
  | nil => rfl
  | cons item rest ih =>
    cases item with
    | none => rw [spaced, ih, separatedRuns_none]
    | some text =>
      rw [spaced, spaced_follows, ih, separatedRuns_some]
      rfl

theorem entryPiece_ne_separator (text : String) : entryPiece text group ≠ .separator := by
  cases group <;> simp [entryPiece]

theorem spaced_eq_further_iff_of_remark (texts : List (Option String)) :
    spaced group false texts = further group texts ↔ ∀ last, ¬[some last].Sublist texts := by
  induction texts with
  | nil => simp [spaced, further]
  | cons item rest ih =>
    cases item with
    | none => simpa [spaced, further] using ih
    | some text =>
      have differ : spaced group false (some text :: rest) ≠ further group (some text :: rest) := by
        simp [spaced, further_some, entryPiece_ne_separator]
      exact iff_of_false differ fun none => none text (by simp)

/-- After an entry no further one may come that has an item without a code span before it. -/
theorem spaced_eq_further_iff (texts : List (Option String)) :
    spaced group true texts = further group texts ↔ ∀ last, ¬[none, some last].Sublist texts := by
  induction texts with
  | nil => simp [spaced, further]
  | cons item rest ih =>
    cases item with
    | none =>
      have same : further group (none :: rest) = further group rest := rfl
      rw [spaced, same, spaced_eq_further_iff_of_remark]
      simp only [List.cons_sublist_cons]
    | some text =>
      rw [spaced, further_some]
      simpa [List.cons_sublist_cons'] using ih

theorem spaced_eq_separated_iff (texts : List (Option String)) :
    spaced group false texts = separated group texts ↔
      ∀ first last, ¬[some first, none, some last].Sublist texts := by
  induction texts with
  | nil => simp [spaced, separated]
  | cons item rest ih =>
    cases item with
    | none =>
      have same : separated group (none :: rest) = separated group rest := rfl
      rw [spaced, same, ih]
      simp [List.cons_sublist_cons']
    | some text =>
      rw [spaced, separated_some, if_neg Bool.false_ne_true, List.nil_append, List.cons_inj_right,
        spaced_eq_further_iff]
      constructor
      · intro clear first last found
        exact clear last found.of_cons_cons
      · intro clear last found
        exact clear text last (found.cons_cons _)

end Lists

namespace Outline

def codeText? (outline : Outline) : Option String :=
  (outline.findDescendant? .codeSpan).map leafText

theorem areNarrative_of_forall {outlines : List Outline}
    (all : ∀ outline ∈ outlines, outline.isNarrative) : areNarrative outlines := by
  induction outlines with
  | nil => rfl
  | cons outline rest ih =>
    rw [List.forall_mem_cons] at all
    rw [areNarrative, all.1, ih all.2]
    rfl

theorem seekAmong?_of_childless (kind : Kind) {outlines : List Outline}
    (childless : ∀ outline ∈ outlines, outline.children = []) :
    seekAmong? kind outlines = outlines.find? (·.kind == kind) := by
  induction outlines with
  | nil => rfl
  | cons outline rest ih =>
    rw [List.forall_mem_cons] at childless
    rw [seekAmong?, seek?_eq, childless.1, ih childless.2, List.find?_cons]
    by_cases own : outline.kind = kind
    · simp [own]
    · rw [if_neg own, beq_eq_false_iff_ne.mpr own]
      rfl

structure Plain (outline : Outline) : Prop where
  item : outline.kind = .listItem
  opens : outline.group? = none
  narrative : areNarrative outline.children

theorem Plain.scan_eq {outline : Outline} (plain : outline.Plain) (group : Group) (passed : Passed)
    (ahead : Bool) :
    outline.scan (some group) passed ahead = entryPieces passed group outline := by
  have entered : enterPieces (some group) passed ahead outline =
      entryPieces passed group outline := by
    rw [enterPieces, plain.item]
    exact itemPieces_of_entry plain.opens group passed
  rw [Outline.scan_eq, entered, scanAll_of_areNarrative _ plain.narrative, exitPieces, plain.opens]
  simp

/-- A scan of plain items needs to know no more than whether the item before was an entry. -/
theorem scanAll_plain (group : Group) {outlines : List Outline}
    (plain : ∀ outline ∈ outlines, outline.Plain) (passed : Passed) :
    scanAll (some group) passed outlines =
      spaced group (passed.item = some true) (outlines.map codeText?) := by
  induction outlines generalizing passed with
  | nil => rfl
  | cons outline rest ih =>
    rw [List.forall_mem_cons] at plain
    have past : passed.pass outline = { passed with item := some outline.hasCodeSpan } := by
      rw [Passed.pass, plain.1.item]
    rw [scanAll, plain.1.scan_eq, past, ih plain.2, List.map_cons, entryPieces]
    cases found : outline.findDescendant? .codeSpan with
    | none => simp [spaced, codeText?, hasCodeSpan, found]
    | some code => simp [spaced, codeText?, hasCodeSpan, found]

end Outline

namespace Document

def piecesWithin (doc : Document) (id : NodeId) : Except BrokenLink (List Piece) := do
  let pieces ← (doc.walk id).mapM fun visit => do doc.visitPieces (← visit)
  return pieces.flatten

@[mk_iff]
structure PlainItem (doc : Document) (item : NodeId) : Prop where
  isItem : doc.hasKind .listItem item
  opensNone : ∀ group ∈ Group.all, ¬doc.isGroupItem group item
  leaves : ∃ paragraph ∈ doc.children item, doc.children item = [paragraph] ∧
    doc.hasKind .paragraph paragraph ∧ ∀ leaf ∈ doc.children paragraph,
      doc.children leaf = [] ∧ (doc.kind? leaf).any Kind.isInline

instance (doc : Document) (item : NodeId) : Decidable (doc.PlainItem item) :=
  decidable_of_iff _ (plainItem_iff doc item).symm

/-- A list of plain items right below the label of a group. -/
@[mk_iff]
structure PlainList (doc : Document) (group : Group) (list : NodeId) : Prop where
  isList : doc.hasKind .list list
  labelled : ∃ label ∈ doc.parent? list, doc.isGroupItem group label
  items : ∀ item ∈ doc.children list, doc.PlainItem item

instance (doc : Document) (group : Group) (list : NodeId) : Decidable (doc.PlainList group list) :=
  decidable_of_iff _ (plainList_iff doc group list).symm

def spanText? (doc : Document) (item : NodeId) : Option String :=
  (((doc.children item).flatMap doc.children).find? (doc.hasKind .codeSpan)).map doc.codeBody

section Plain

variable {doc : Document} (built : Built doc)

include built

theorem Built.piecesWithin_eq {id : Nat} (inside : id < doc.size) :
    doc.piecesWithin id = doc.collect (doc.tour id) := by
  rw [piecesWithin, built.grown.walk_eq_tour (built.placed inside), List.mapM_map]
  rfl

theorem Built.outlineAt_leaf {leaf : Nat} (childless : doc.children leaf = [])
    (inline : (doc.kind? leaf).any Kind.isInline) : leaf < doc.size ∧
      (doc.outlineAt leaf).children = [] ∧ (doc.outlineAt leaf).isNarrative ∧
      (doc.hasKind .codeSpan leaf → (doc.outlineAt leaf).leafText = doc.codeBody leaf) := by
  have inside : leaf < doc.size := by
    by_contra outside
    rw [kind?, get?_eq_none (Nat.le_of_not_lt outside)] at inline
    cases inline
  have only : doc.outlineAt leaf = .node (doc.labelAt leaf) [] := by
    rw [outlineAt_eq, ← built.children_eq, childless]
    rfl
  rw [kind?_eq inside, Option.any_some, only] at inline
  refine ⟨inside, by rw [only, Outline.children_node], ?_, ?_⟩
  · rw [only, Outline.isNarrative]
    revert inline
    rw [Outline.kind_node]
    cases (doc.labelAt leaf).kind <;> decide
  · intro code
    have kind := (kind_of_hasKind code).2
    rw [only, Outline.kind_node] at kind
    rw [only, Outline.leafText, Label.ownText, kind, codeBody, literal?_eq inside]
    exact String.append_empty

namespace PlainItem

variable {item : NodeId} (plain : doc.PlainItem item)

include plain

theorem isPlain : (doc.outlineAt item).Plain where
  item := (kind_of_hasKind plain.isItem).2
  opens := by
    have placed := built.placed (lt_size_of_hasKind plain.isItem)
    cases opened : (doc.outlineAt item).group? with
    | none => rfl
    | some group =>
      have opens := plain.opensNone group group.mem_all
      rw [built.grown.isGroupItem_eq placed, decide_eq_true_eq] at opens
      exact absurd opened opens
  narrative := by
    obtain ⟨paragraph, -, only, isParagraph, leaves⟩ := plain.leaves
    rw [built.children_eq] at only leaves
    have below : Outline.areNarrative ((doc.offspring paragraph).map doc.outlineAt) := by
      apply Outline.areNarrative_of_forall
      rw [List.forall_mem_map]
      intro leaf member
      exact (built.outlineAt_leaf (leaves leaf member).1 (leaves leaf member).2).2.2.1
    have kind := (kind_of_hasKind isParagraph).2
    rw [outlineAt_eq, Outline.kind_node] at kind
    rw [children_outlineAt, only, List.map_singleton, outlineAt_eq doc paragraph,
      Outline.areNarrative, Outline.isNarrative, kind, below]
    rfl

theorem codeText?_eq : (doc.outlineAt item).codeText? = doc.spanText? item := by
  obtain ⟨paragraph, -, only, isParagraph, leaves⟩ := plain.leaves
  have facts := fun leaf member =>
    built.outlineAt_leaf (leaves leaf member).1 (leaves leaf member).2
  have childless : ∀ outline ∈ (doc.children paragraph).map doc.outlineAt,
      outline.children = [] := by
    rw [List.forall_mem_map]
    intro leaf member
    exact (facts leaf member).2.1
  have searched : (doc.outlineAt item).findDescendant? .codeSpan =
      ((doc.children paragraph).find? (doc.hasKind .codeSpan)).map doc.outlineAt := by
    rw [map_find?_hasKind fun leaf member => (facts leaf member).1,
      ← Outline.seekAmong?_of_childless .codeSpan childless, Outline.findDescendant?,
      children_outlineAt, ← built.children_eq, only, List.map_singleton, Outline.seekAmong?,
      Outline.seek?_eq, (kind_of_hasKind isParagraph).2, if_neg (by decide),
      Outline.findDescendant?, children_outlineAt, ← built.children_eq]
    cases doc.children paragraph <;> rfl
  rw [Outline.codeText?, searched, spanText?, only, List.flatMap_singleton, Option.map_map]
  apply Option.map_congr
  intro code found
  exact (facts code (List.mem_of_find?_eq_some found)).2.2.2 (List.find?_some found)

end PlainItem

namespace PlainList

variable {group : Group} {list : NodeId} (plain : doc.PlainList group list)

include plain

theorem groupAbove_eq : doc.groupAbove list = some group := by
  obtain ⟨label, named, opens⟩ := plain.labelled
  have inside := built.link_resolves .parent list label named
  have item : (doc.outlineAt label).kind = .listItem := by
    rw [isGroupItem, Bool.and_eq_true] at opens
    exact (kind_of_hasKind opens.1).2
  rw [built.grown.isGroupItem_eq (built.placed inside), decide_eq_true_eq] at opens
  rw [(built.attached inside).groupAbove_of_mem built.grown (built.mem_offspring_iff.mpr named),
    Outline.around, if_pos item, opens]

theorem around_eq : (doc.outlineAt list).around (doc.groupAbove list) = some group := by
  rw [Outline.around, (kind_of_hasKind plain.isList).2, if_neg (by decide),
    plain.groupAbove_eq built]

theorem entryText?_eq {item : NodeId} (member : item ∈ doc.children list) :
    doc.entryText? group item = .ok (doc.spanText? item) := by
  obtain ⟨inside, kind⟩ := kind_of_hasKind (plain.items item member).isItem
  have above : doc.groupAbove item = some group := by
    have attached := built.attached (lt_size_of_hasKind plain.isList)
    rw [built.children_eq] at member
    rw [attached.groupAbove_of_mem built.grown member, plain.around_eq built]
  rw [(built.attached inside).entryText?_eq built.grown kind, if_pos above,
    ← (plain.items item member).codeText?_eq built]
  rfl

theorem piecesWithin_eq : doc.piecesWithin list =
    .ok (spaced group false ((doc.children list).map doc.spanText?)) := by
  obtain ⟨label, named, -⟩ := plain.labelled
  obtain ⟨inside, kind⟩ := kind_of_hasKind plain.isList
  obtain ⟨before, after, split⟩ := List.append_of_mem (built.mem_offspring_iff.mpr named)
  have between : Between doc label list before after :=
    ⟨built.attached (built.link_resolves .parent list label named), split⟩
  have scanned := Outline.scanAll_plain group (List.forall_mem_map.mpr fun item member =>
    (plain.items item member).isPlain built) {}
  have texts : ((doc.children list).map doc.outlineAt).map Outline.codeText? =
      (doc.children list).map doc.spanText? := by
    rw [List.map_map]
    exact List.map_congr_left fun item member => (plain.items item member).codeText?_eq built
  rw [built.piecesWithin_eq inside, between.toured built.grown, Outline.scan_eq,
    plain.around_eq built, children_outlineAt, ← built.children_eq, scanned, texts,
    Outline.enterPieces, kind, Outline.exitPieces, Outline.group?, kind]
  simp

end PlainList

end Plain

/--
The items of a list under the label of a group that have a code span are the entries of the group,
and they are written in order and in runs. There is exactly one separator between any two entries
that follow one another if and only if no item without a code span stands between two that have one.
-/
theorem entries_separated_iff {doc : Document} (built : Built doc) {group : Group} {list : NodeId}
    (plain : doc.PlainList group list) :
    (∀ item ∈ doc.children list, doc.entryText? group item = .ok (doc.spanText? item)) ∧
    (∃ before after, doc.pieces = .ok (before ++
      separatedRuns group ((doc.children list).map doc.spanText?) ++ after)) ∧
    doc.piecesWithin list = .ok (separatedRuns group ((doc.children list).map doc.spanText?)) ∧
    (doc.piecesWithin list = .ok (separated group ((doc.children list).map doc.spanText?)) ↔
      ∀ first last, ¬[some first, none, some last].Sublist
        ((doc.children list).map doc.spanText?)) := by
  have inside := lt_size_of_hasKind plain.isList
  have written := plain.piecesWithin_eq built
  refine ⟨fun item member => plain.entryText?_eq built member, ?_, ?_, ?_⟩
  · obtain ⟨before, after, around, -⟩ :=
      built.tour_around built.root_lt (built.attached inside).within
    obtain ⟨earlier, first⟩ := built.exists_collect before
    obtain ⟨later, last⟩ := built.exists_collect after
    refine ⟨earlier, later, ?_⟩
    rw [built.piecesWithin_eq inside, spaced_eq_separatedRuns] at written
    have whole : doc.pieces = doc.collect (doc.tour root) := built.piecesWithin_eq built.root_lt
    rw [whole, around]
    exact collect_append (collect_append first written) last
  · rw [written, spaced_eq_separatedRuns]
  · rw [written, Except.ok.injEq, spaced_eq_separated_iff]

def remarked : Document :=
  ofOutlines [.branch .list [
    .branch .listItem [.branch .paragraph [.leaf .text "parameters".toList], .branch .list [
      .branch .listItem [.branch .paragraph [.leaf .text "all finite".toList]],
      .branch .listItem [.branch .paragraph [.leaf .codeSpan "a int".toList]],
      .branch .listItem [.branch .paragraph [.leaf .codeSpan "b int".toList,
        .leaf .text " second".toList]]]],
    .branch .listItem [.branch .paragraph [.leaf .text "returns".toList], .branch .list [
      .branch .listItem [.branch .paragraph [.leaf .codeSpan "int".toList]],
      .branch .listItem [.branch .paragraph [.leaf .text "or".toList]],
      .branch .listItem [.branch .paragraph [.leaf .codeSpan "error".toList]]]]]]

theorem entries_separated_iff_remarked : Built remarked ∧ remarked.PlainList .parameters 5 ∧
    remarked.piecesWithin 5 = .ok [.parameter "a int", .separator, .parameter "b int"] := by
  have built : Built remarked := built_ofOutlines _
  have plain : remarked.PlainList .parameters 5 := by decide
  have texts : (remarked.children 5).map remarked.spanText? =
      [none, some "a int", some "b int"] := by decide
  have apart : ∀ first last, ¬[some first, none, some last].Sublist
      ((remarked.children 5).map remarked.spanText?) := by
    rw [texts]
    simp [List.cons_sublist_cons']
  have written := (entries_separated_iff built plain).2.2.2.mpr apart
  rw [texts] at written
  exact ⟨built, plain, written⟩

/-- Two results with a remark between them are written without a separator. -/
theorem separator_lost_after_remark : remarked.PlainList .returns 19 ∧
    (remarked.children 19).map (remarked.entryText? .returns) =
      [.ok (some "int"), .ok none, .ok (some "error")] ∧
    remarked.piecesWithin 19 = .ok [.result "int", .result "error"] ∧
    separated .returns [some "int", none, some "error"] =
      [.result "int", .separator, .result "error"] := by
  decide

end Document

end Tangle
