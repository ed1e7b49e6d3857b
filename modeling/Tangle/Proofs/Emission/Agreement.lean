import Tangle.Proofs.Document.Reading
import Tangle.Proofs.Emission.Scan

/-!
The pieces of a grown document are those of the single pass over its ordered tree. At every visit
the document decides anew what to write, by searches back to a heading, on to the next chunk, up to
the list item around and down to a code span; each search finds what the scan has carried there.
-/

namespace Tangle.Document

section Siblings

variable {doc : Document} {ids : List Nat} (inside : ∀ id ∈ ids, id < doc.size)

include inside

theorem map_find?_hasKind (kind : Kind) : (ids.find? (doc.hasKind kind)).map doc.outlineAt =
    (ids.map doc.outlineAt).find? (·.kind == kind) := by
  rw [List.find?_map, List.find?_congr fun id member => hasKind_eq (inside id member) kind]
  rfl

theorem map_takeWhile_hasKind (kind : Kind) :
    (ids.takeWhile fun id => !doc.hasKind kind id).map doc.outlineAt =
      (ids.map doc.outlineAt).takeWhile (·.kind != kind) := by
  induction ids with
  | nil => rfl
  | cons id rest ih =>
    have later := ih fun other member => inside other (List.mem_cons_of_mem id member)
    rw [List.takeWhile_cons, List.map_cons, List.takeWhile_cons, ← later,
      hasKind_eq (inside id List.mem_cons_self), bne]
    cases (doc.outlineAt id).kind == kind <;> rfl

end Siblings

theorem findBounded?_unread (doc : Document) (id : NodeId) (kind : Kind) (direction : Direction)
    (boundary : Kind) : doc.findBounded? id kind direction boundary =
      .ok ((doc.siblingsBefore id direction boundary).find? (doc.hasKind kind)) := by
  have unread : doc.readsAs none = fun _ => (pure true : Except BrokenLink Bool) := rfl
  rw [findBounded?, unread, List.findM?_pure (m := Except BrokenLink) fun _ => true,
    List.find?_filter]
  simp only [and_true, Bool.decide_eq_true]
  rfl

theorem Grown.opensGroup_eq {doc : Document} (grown : Grown doc) {id : Nat}
    (placed : doc.Placed id) :
    ((doc.firstChild? id).any (doc.isGroupItem .parameters) ||
      (doc.firstChild? id).any (doc.isGroupItem .returns)) = (doc.outlineAt id).opensGroup := by
  rw [(grown.linked id placed.2).first, Outline.opensGroup, children_outlineAt]
  cases children : doc.offspring id with
  | nil => rfl
  | cons child rest =>
    have member : child ∈ doc.offspring id := by simp [children]
    rw [List.head?_cons, Option.any_some, Option.any_some, List.map_cons, List.head?_cons,
      Option.any_some, grown.isGroupItem_eq (placed_of_mem member),
      grown.isGroupItem_eq (placed_of_mem member)]
    rcases (doc.outlineAt child).group? with - | - | - <;> rfl

def groupAbove (doc : Document) (id : Nat) : Option Group :=
  (doc.findAncestor? id .listItem).bind fun item => (doc.outlineAt item).group?

theorem Grown.groupAbove_root {doc : Document} (grown : Grown doc) : doc.groupAbove root = none := by
  rw [groupAbove, findAncestor?, grown.ancestors_root]
  rfl

namespace Attached

variable {doc : Document} (grown : Grown doc) {id : Nat} (attached : doc.Attached id)

include grown attached

theorem groupAbove_of_mem {child : Nat} (member : child ∈ doc.offspring id) :
    doc.groupAbove child = (doc.outlineAt id).around (doc.groupAbove id) := by
  rw [groupAbove, attached.findAncestor?_of_mem grown member, Outline.around,
    hasKind_eq (attached.placed grown).1]
  by_cases item : (doc.outlineAt id).kind = .listItem
  · rw [if_pos item, beq_iff_eq.mpr item, if_pos rfl, Option.bind_some]
  · rw [if_neg item, beq_eq_false_iff_ne.mpr item, if_neg Bool.false_ne_true, groupAbove]

theorem isUnderGroup_eq (item : (doc.outlineAt id).kind = .listItem) (group : Group) :
    doc.isUnderGroup group id = decide (doc.groupAbove id = some group) := by
  rw [isUnderGroup, hasKind_eq (attached.placed grown).1, beq_iff_eq.mpr item, Bool.true_and,
    groupAbove]
  cases up : doc.findAncestor? id .listItem with
  | none => rfl
  | some above =>
    exact grown.isGroupItem_eq ((attached.of_findAncestor? grown up).placed grown) group

theorem entryText?_eq (item : (doc.outlineAt id).kind = .listItem) (group : Group) :
    doc.entryText? group id = .ok (if doc.groupAbove id = some group
      then ((doc.outlineAt id).findDescendant? .codeSpan).map Outline.leafText else none) := by
  obtain ⟨same, all⟩ := grown.findDescendant?_eq .codeSpan (attached.placed grown)
  rw [entryText?, attached.isUnderGroup_eq grown item, ← same]
  by_cases under : doc.groupAbove id = some group
  · rw [if_pos under, decide_eq_true under, if_pos rfl]
    cases found : doc.findDescendant? id .codeSpan with
    | none => rfl
    | some code =>
      change some <$> doc.leafText code = _
      rw [grown.leafText_eq (all code found)]
      rfl
  · rw [if_neg under, decide_eq_false under]
    rfl

end Attached

/-- The child of a node that stands between two lists of its siblings. -/
structure Between (doc : Document) (id child : Nat) (before after : List Nat) : Prop where
  attached : doc.Attached id
  split : doc.offspring id = before ++ child :: after

namespace Between

variable {doc : Document} {id child : Nat} {before after : List Nat} (grown : Grown doc)
  (between : Between doc id child before after)

include between

theorem mem : child ∈ doc.offspring id := by
  simp [between.split]

theorem mem_before {sibling : Nat} (member : sibling ∈ before) : sibling ∈ doc.offspring id := by
  simp [between.split, member]

theorem mem_after {sibling : Nat} (member : sibling ∈ after) : sibling ∈ doc.offspring id := by
  simp [between.split, member]

theorem placed : doc.Placed child := placed_of_mem between.mem

theorem before_lt : ∀ sibling ∈ before.reverse, sibling < doc.size := by
  intro sibling member
  exact (mem_offspring.mp (between.mem_before (List.mem_reverse.mp member))).1

theorem after_lt : ∀ sibling ∈ after, sibling < doc.size := by
  intro sibling member
  exact (mem_offspring.mp (between.mem_after member)).1

include grown

theorem linked : Linked doc id := grown.linked id (between.attached.placed grown).2

theorem inSection?_backward (kind : Kind) : ∃ found, doc.inSection? child .backward kind = .ok found ∧
    found.map doc.outlineAt =
      (Outline.sinceHeading (before.map doc.outlineAt)).find? (·.kind == kind) ∧
    ∀ sibling ∈ found, sibling ∈ doc.offspring id := by
  have inside := between.before_lt
  have near : ∀ sibling ∈ before.reverse.takeWhile fun sibling => !doc.hasKind .heading sibling,
      sibling ∈ before.reverse :=
    fun sibling member => (List.takeWhile_sublist _).subset member
  refine ⟨_, doc.findBounded?_unread child kind .backward .heading, ?_, ?_⟩
  · rw [siblingsBefore, (between.linked grown).siblings_backward between.split,
      map_find?_hasKind (fun sibling member => inside sibling (near sibling member)),
      map_takeWhile_hasKind inside, List.map_reverse, Outline.sinceHeading]
  · intro sibling found
    rw [siblingsBefore, (between.linked grown).siblings_backward between.split] at found
    have member := near sibling (List.mem_of_find?_eq_some found)
    exact between.mem_before (List.mem_reverse.mp member)

theorem inSection?_forward : ∃ found, doc.inSection? child .forward .codeBlock = .ok found ∧
    found.isSome = Outline.chunkAhead (after.map doc.outlineAt) := by
  have inside := between.after_lt
  have near : ∀ sibling ∈ after.takeWhile fun sibling => !doc.hasKind .heading sibling,
      sibling < doc.size :=
    fun sibling member => inside sibling ((List.takeWhile_sublist _).subset member)
  refine ⟨_, doc.findBounded?_unread child .codeBlock .forward .heading, ?_⟩
  rw [siblingsBefore, (between.linked grown).siblings_forward between.split,
    Outline.chunkAhead_eq, ← map_takeWhile_hasKind inside, ← map_find?_hasKind near,
    Option.isSome_map]

theorem owner?_eq (code : (doc.outlineAt child).kind = .codeBlock) :
    (doc.owner? child).map (fun heading => (doc.outlineAt heading).topic) =
      (Passed.over (before.map doc.outlineAt)).topic ∧
    ∀ heading ∈ doc.owner? child,
      doc.Placed heading ∧ (doc.outlineAt heading).kind = .heading := by
  have inside := between.before_lt
  have owner : doc.owner? child = before.reverse.find? (doc.hasKind .heading) := by
    rw [owner?, hasKind_eq between.placed.1, beq_iff_eq.mpr code, if_pos rfl, findSibling?,
      (between.linked grown).siblings_backward between.split]
  rw [owner]
  constructor
  · rw [Passed.over_eq, ← List.map_reverse, ← map_find?_hasKind inside, Option.map_map]
    rfl
  · intro heading found
    have member := List.mem_of_find?_eq_some found
    have kind := List.find?_some found
    rw [hasKind_eq (inside heading member)] at kind
    exact ⟨placed_of_mem (between.mem_before (List.mem_reverse.mp member)), eq_of_beq kind⟩

theorem prologuePieces_eq (code : (doc.outlineAt child).kind = .codeBlock) :
    doc.prologuePieces child = if (Passed.over (before.map doc.outlineAt)).topic = some .file
      then [.prologue (doc.codeBody child)] else [] := by
  obtain ⟨topic, heading⟩ := between.owner?_eq grown code
  rw [← topic, prologuePieces, fileScope?]
  cases owned : doc.owner? child with
  | none => rfl
  | some owner =>
    obtain ⟨placed, kind⟩ := heading owner owned
    have file := grown.fileHeading?_isSome placed kind
    simp only [Option.map_some, Option.some.injEq, Option.bind_some]
    cases name : doc.fileHeading? owner with
    | none =>
      rw [name] at file
      rw [if_neg (of_decide_eq_false file.symm)]
      rfl
    | some name' =>
      rw [name] at file
      rw [if_pos (of_decide_eq_true file.symm)]
      rfl

theorem functionScope?_eq (code : (doc.outlineAt child).kind = .codeBlock) :
    ∃ scope, doc.functionScope? child = .ok scope ∧ scope.map (·.body) =
      if (Passed.over (before.map doc.outlineAt)).topic = some .function
        then some (doc.codeBody child) else none := by
  obtain ⟨topic, heading⟩ := between.owner?_eq grown code
  rw [← topic, functionScope?]
  cases owned : doc.owner? child with
  | none => exact ⟨none, rfl, rfl⟩
  | some owner =>
    obtain ⟨placed, kind⟩ := heading owner owned
    simp only [grown.functionHeading?_eq placed kind, Option.map_some, Option.some.injEq]
    refine ⟨_, rfl, ?_⟩
    split_ifs <;> rfl

theorem hasGroupList_eq : ∃ parameters returns,
    doc.hasGroupList .parameters child = .ok parameters ∧
    doc.hasGroupList .returns child = .ok returns ∧
    (parameters || returns) = (Passed.over (before.map doc.outlineAt)).groups := by
  obtain ⟨list, search, found, siblings⟩ := between.inSection?_backward grown .list
  refine ⟨_, _, by rw [hasGroupList, search]; rfl, by rw [hasGroupList, search]; rfl, ?_⟩
  rw [Passed.over_eq, ← found]
  cases list with
  | none => rfl
  | some list =>
    exact grown.opensGroup_eq (placed_of_mem (siblings list rfl))

theorem bodyOpening_eq : doc.bodyOpening child =
    .ok (if (Passed.over (before.map doc.outlineAt)).groups then [.openBody]
      else [.noGroups, .openBody]) := by
  obtain ⟨parameters, returns, first, second, groups⟩ := between.hasGroupList_eq grown
  rw [← groups, bodyOpening, first, second]
  cases parameters <;> cases returns <;> rfl

theorem chunkPieces_eq (body : String)
    (function : (Passed.over (before.map doc.outlineAt)).topic = some .function) :
    doc.chunkPieces child body = .ok (Outline.codePieces (Passed.over (before.map doc.outlineAt))
      (Outline.chunkAhead (after.map doc.outlineAt)) body) := by
  obtain ⟨earlier, back, chunk, -⟩ := between.inSection?_backward grown .codeBlock
  obtain ⟨later, forth, ahead⟩ := between.inSection?_forward grown
  have passed : (Passed.over (before.map doc.outlineAt)).chunk = earlier.isSome := by
    rw [Passed.over_eq, ← chunk, Option.isSome_map]
  rw [chunkPieces, back, forth, between.bodyOpening_eq grown, Outline.codePieces, function, passed,
    ← ahead]
  cases earlier <;> cases later <;> rfl

theorem codePieces_eq (code : (doc.outlineAt child).kind = .codeBlock) :
    doc.codePieces child = .ok (Outline.codePieces (Passed.over (before.map doc.outlineAt))
      (Outline.chunkAhead (after.map doc.outlineAt)) (doc.codeBody child)) := by
  obtain ⟨scope, found, body⟩ := between.functionScope?_eq grown code
  rw [codePieces, found, between.prologuePieces_eq grown code]
  by_cases function : (Passed.over (before.map doc.outlineAt)).topic = some .function
  · rw [if_pos function] at body
    obtain ⟨block, rfl, own⟩ := Option.map_eq_some_iff.mp body
    have chunk := between.chunkPieces_eq grown (doc.codeBody child) function
    rw [← own] at chunk ⊢
    rw [function, if_neg (by decide)]
    change (do return [] ++ (← doc.chunkPieces child block.body)) = _
    rw [chunk]
    rfl
  · rw [if_neg function, Option.map_eq_none_iff] at body
    subst body
    change Except.ok _ = _
    congr 1
    unfold Outline.codePieces
    rcases topic : (Passed.over (before.map doc.outlineAt)).topic with - | - | - | - <;> simp_all

/-- The latest list item before a node, of which the scan remembers whether it has a code span. -/
theorem previousItem_eq : ∃ previous, doc.inSection? child .backward .listItem = .ok previous ∧
    (Passed.over (before.map doc.outlineAt)).item =
      previous.map (fun item => (doc.outlineAt item).hasCodeSpan) ∧
    ∀ item ∈ previous, item ∈ doc.offspring id ∧ (doc.outlineAt item).kind = .listItem := by
  obtain ⟨previous, search, found, siblings⟩ := between.inSection?_backward grown .listItem
  refine ⟨previous, search, ?_, ?_⟩
  · rw [Passed.over_eq, ← found, Option.map_map]
    rfl
  · intro item same
    rw [Option.mem_def.mp same] at found
    have listed := List.find?_some found.symm
    exact ⟨siblings item same, eq_of_beq listed⟩

/-- The list item before an entry is an entry of the same group if it has a code span. -/
theorem followsEntry_eq (group : Group) (under : doc.groupAbove child = some group) :
    doc.followsEntry group child =
      .ok (decide ((Passed.over (before.map doc.outlineAt)).item = some true)) := by
  obtain ⟨previous, search, passed, siblings⟩ := between.previousItem_eq grown
  rw [followsEntry, search, passed]
  cases previous with
  | none => rfl
  | some item =>
    obtain ⟨member, kind⟩ := siblings item rfl
    have same : doc.groupAbove item = some group := by
      rw [between.attached.groupAbove_of_mem grown member,
        ← between.attached.groupAbove_of_mem grown between.mem, under]
    change (do return (← doc.entryText? group item).isSome) = _
    rw [(between.attached.child member).entryText?_eq grown kind, if_pos same]
    simp [Outline.hasCodeSpan, bind, Except.bind, pure, Except.pure]

theorem entryPieces_eq (item : (doc.outlineAt child).kind = .listItem) (group : Group) :
    doc.entryPieces group child = .ok (if doc.groupAbove child = some group
      then Outline.entryPieces (Passed.over (before.map doc.outlineAt)) group (doc.outlineAt child)
      else []) := by
  rw [entryPieces, (between.attached.child between.mem).entryText?_eq grown item]
  by_cases under : doc.groupAbove child = some group
  · rw [if_pos under, if_pos under, Outline.entryPieces]
    cases (doc.outlineAt child).findDescendant? .codeSpan with
    | none => rfl
    | some code =>
      change (do
        let separated ← doc.followsEntry group child
        return if separated then [Piece.separator, Outline.entryPiece code.leafText group]
          else [Outline.entryPiece code.leafText group]) = _
      rw [between.followsEntry_eq grown group under]
      by_cases separated : (Passed.over (before.map doc.outlineAt)).item = some true
      · rw [if_pos separated, decide_eq_true separated]
        rfl
      · rw [if_neg separated, decide_eq_false separated]
        rfl
  · rw [if_neg under, if_neg under]
    rfl

theorem groupOpening_eq (group : Group) :
    doc.groupOpening group child = .ok (if (doc.outlineAt child).group? = some group
      then Outline.openingPieces (Passed.over (before.map doc.outlineAt)) group else []) := by
  unfold groupOpening
  rw [grown.isGroupItem_eq between.placed]
  by_cases own : (doc.outlineAt child).group? = some group
  · rw [if_pos own, decide_eq_true own, if_pos rfl]
    cases group with
    | parameters => rfl
    | returns =>
      obtain ⟨previous, search, passed, -⟩ := between.previousItem_eq grown
      rw [Outline.openingPieces, passed, search]
      cases previous <;> rfl
  · rw [if_neg own, decide_eq_false own]
    rfl

theorem itemPieces_eq (item : (doc.outlineAt child).kind = .listItem) :
    doc.itemPieces child = .ok (Outline.itemPieces (doc.groupAbove child)
      (Passed.over (before.map doc.outlineAt)) (doc.outlineAt child)) := by
  unfold itemPieces Group.all
  rw [List.mapM_cons, List.mapM_cons, List.mapM_nil, between.groupOpening_eq grown,
    between.entryPieces_eq grown item, between.groupOpening_eq grown,
    between.entryPieces_eq grown item]
  rfl

theorem headingPieces_eq (heading : (doc.outlineAt child).kind = .heading) :
    doc.headingPieces child = .ok (if (doc.outlineAt child).topic = .function
      then [.signature (doc.outlineAt child).leafText] else []) := by
  rw [headingPieces, grown.functionHeading?_eq between.placed heading]
  split_ifs <;> rfl

theorem enterPieces_eq : doc.enterPieces child =
    .ok (Outline.enterPieces (doc.groupAbove child) (Passed.over (before.map doc.outlineAt))
      (Outline.chunkAhead (after.map doc.outlineAt)) (doc.outlineAt child)) := by
  rw [enterPieces, kind?_eq between.placed.1, Outline.enterPieces]
  cases kind : (doc.outlineAt child).kind with
  | codeBlock =>
    have body : doc.codeBody child = (doc.outlineAt child).label.literal.getD "" := by
      rw [codeBody, literal?_eq between.placed.1, label_outlineAt]
    rw [← body]
    exact between.codePieces_eq grown kind
  | heading => exact between.headingPieces_eq grown kind
  | listItem => exact between.itemPieces_eq grown kind
  | _ => rfl

end Between

theorem Grown.exitPieces_eq {doc : Document} (grown : Grown doc) {id : Nat}
    (placed : doc.Placed id) : doc.exitPieces id = (doc.outlineAt id).exitPieces := by
  rw [exitPieces, Outline.exitPieces, Group.all, List.any_cons, List.any_cons, List.any_nil,
    grown.isGroupItem_eq placed, grown.isGroupItem_eq placed]
  rcases (doc.outlineAt id).group? with - | - | - <;> rfl

def collect (doc : Document) (visits : List Visit) : Except BrokenLink (List Piece) := do
  return (← visits.mapM doc.visitPieces).flatten

theorem collect_append {doc : Document} {visits others : List Visit} {pieces more : List Piece}
    (first : doc.collect visits = .ok pieces) (second : doc.collect others = .ok more) :
    doc.collect (visits ++ others) = .ok (pieces ++ more) := by
  unfold collect at *
  rw [List.mapM_append]
  cases written : visits.mapM doc.visitPieces with
  | error broken =>
    rw [written] at first
    cases first
  | ok lists =>
    cases further : others.mapM doc.visitPieces with
    | error broken =>
      rw [further] at second
      cases second
    | ok rest =>
      rw [written] at first
      rw [further] at second
      cases first
      cases second
      change Except.ok (lists ++ rest).flatten = _
      rw [List.flatten_append]

theorem collect_singleton {doc : Document} {visit : Visit} {pieces : List Piece}
    (visited : doc.visitPieces visit = .ok pieces) : doc.collect [visit] = .ok pieces := by
  rw [collect, List.mapM_cons, List.mapM_nil, visited]
  change Except.ok [pieces].flatten = _
  rw [List.flatten_singleton]

/-- The tour of a node between its siblings writes what the scan writes there. -/
def Toured (doc : Document) (child : Nat) (before after : List Nat) : Prop :=
  doc.collect (doc.tour child) = .ok ((doc.outlineAt child).scan (doc.groupAbove child)
    (Passed.over (before.map doc.outlineAt)) (Outline.chunkAhead (after.map doc.outlineAt)))

theorem Grown.collect_tours {doc : Document} (grown : Grown doc) {id : Nat}
    (attached : doc.Attached id)
    (tours : ∀ child before after, Between doc id child before after →
      doc.Toured child before after)
    (before after : List Nat) (split : doc.offspring id = before ++ after) :
    doc.collect (after.flatMap doc.tour) =
      .ok (Outline.scanAll ((doc.outlineAt id).around (doc.groupAbove id))
        (Passed.over (before.map doc.outlineAt)) (after.map doc.outlineAt)) := by
  induction after generalizing before with
  | nil => rfl
  | cons child after ih =>
    have between : Between doc id child before after := ⟨attached, split⟩
    have later := ih (before ++ [child]) (by simpa using split)
    have passed : Passed.over ((before ++ [child]).map doc.outlineAt) =
        (Passed.over (before.map doc.outlineAt)).pass (doc.outlineAt child) := by
      rw [List.map_append, Passed.over, List.foldl_append]
      rfl
    rw [passed] at later
    rw [List.flatMap_cons, List.map_cons, Outline.scanAll,
      ← attached.groupAbove_of_mem grown between.mem]
    rw [← attached.groupAbove_of_mem grown between.mem] at later
    exact collect_append (tours child before after between) later

theorem Grown.collect_tour_of_enter {doc : Document} (grown : Grown doc) {id : Nat}
    (attached : doc.Attached id)
    (tours : ∀ child before after, Between doc id child before after →
      doc.Toured child before after)
    {passed : Passed} {ahead : Bool} (entered : doc.enterPieces id =
      .ok ((doc.outlineAt id).enterPieces (doc.groupAbove id) passed ahead)) :
    doc.collect (doc.tour id) =
      .ok ((doc.outlineAt id).scan (doc.groupAbove id) passed ahead) := by
  have enter : doc.collect [⟨id, .enter⟩] = .ok _ := collect_singleton entered
  have below := grown.collect_tours attached tours [] _ rfl
  have leave : doc.collect [⟨id, .exit⟩] = .ok (doc.outlineAt id).exitPieces :=
    collect_singleton (congrArg Except.ok (grown.exitPieces_eq (attached.placed grown)))
  rw [tour_eq, Outline.scan_eq, children_outlineAt]
  exact collect_append (collect_append enter below) leave

theorem Between.toured {doc : Document} (grown : Grown doc) {id child : Nat}
    {before after : List Nat} (between : Between doc id child before after) :
    doc.Toured child before after := by
  induction child using doc.offspring_induction generalizing id before after with
  | step child ih =>
    apply grown.collect_tour_of_enter (between.attached.child between.mem)
    · intro grandchild earlier later nested
      exact ih grandchild nested.mem nested
    · exact between.enterPieces_eq grown

theorem Grown.pieces_eq_collect {doc : Document} (grown : Grown doc) :
    doc.pieces = doc.collect (doc.tour root) := by
  rw [pieces, grown.walk_eq_tour grown.placed_root, List.mapM_map]
  rfl

/-- The pieces of a grown document are those of the single pass over its ordered tree. -/
theorem Grown.pieces_eq {doc : Document} (grown : Grown doc) :
    doc.pieces = .ok doc.outline.pieces := by
  have kind : (doc.outlineAt root).kind = .document := by
    rw [Outline.kind, label_outlineAt, grown.labelAt_root]
  have entered : doc.enterPieces root =
      .ok ((doc.outlineAt root).enterPieces (doc.groupAbove root) {} false) := by
    rw [enterPieces, kind?_eq grown.placed_root.1, Outline.enterPieces, kind]
  have whole := grown.collect_tour_of_enter .root (fun _ _ _ between => between.toured grown)
    entered
  rw [grown.groupAbove_root] at whole
  rw [grown.pieces_eq_collect]
  exact whole

theorem Grown.pieces_eq_scanAll {doc : Document} (grown : Grown doc) :
    doc.pieces = .ok (Outline.scanAll none {} doc.outline.children) := by
  have kind : doc.outline.kind = .document := by
    rw [Outline.kind, outline, label_outlineAt, grown.labelAt_root]
  have opens : doc.outline.group? = none := by
    rw [Outline.group?, kind, if_neg (by decide)]
  have around : doc.outline.around none = none := by
    rw [Outline.around, kind, if_neg (by decide)]
  rw [grown.pieces_eq, Outline.pieces, Outline.scan_eq, Outline.enterPieces, kind, around,
    Outline.exitPieces, opens]
  simp

theorem Grown.emit_eq_scanAll {doc : Document} (grown : Grown doc) :
    doc.emit = .ok (Generated.ofPieces (Outline.scanAll none {} doc.outline.children)) := by
  rw [emit, grown.pieces_eq_scanAll]
  rfl

/--
Whatever nodes were added in whatever order, following links at every visit gives the source and
the signatures of the single pass over the ordered tree.
-/
theorem emit_eq_single_pass {doc : Document} (grown : Grown doc) :
    doc.emit = .ok (Generated.ofPieces doc.outline.pieces) := by
  rw [emit, grown.pieces_eq]
  rfl

def interleaved : Document :=
  (((empty.append root { kind := .heading, level := 2 }).append root
    { kind := .codeBlock, literal := some "return\n" }).append 1
    { kind := .text, literal := some "func " }).append 1
    { kind := .codeSpan, literal := some "F" }

theorem emit_eq_single_pass_interleaved : Grown interleaved ∧
    Generated.ofPieces interleaved.outline.pieces =
      ⟨"func F()" ++ bodyStart ++ "return\n" ++ bodyEnd, ["func F"]⟩ := by
  have grown : Grown interleaved := .append (.append (.append (.append .empty _ _) _ _) _ _) _ _
  have written : interleaved.emit =
      .ok ⟨"func F()" ++ bodyStart ++ "return\n" ++ bodyEnd, ["func F"]⟩ := by decide
  rw [emit_eq_single_pass grown] at written
  exact ⟨grown, Except.ok.inj written⟩

end Tangle.Document
