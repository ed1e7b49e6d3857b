import Mathlib.Data.List.Find
import Tangle.Proofs.Document.Tree
import Tangle.Proofs.Outline.Reading

/-!
A grown document reads as its ordered tree does: plain texts, first leaves, searches down, groups
and topics come out the same whether links are followed or the tree is taken apart.
-/

namespace Tangle.Document

section Labels

variable {doc : Document} {id : Nat}

theorem exists_labelAt (inside : id < doc.size) :
    ∃ node, doc.get? id = some node ∧ node.toLabel = doc.labelAt id := by
  obtain ⟨node, found⟩ := exists_get? inside
  refine ⟨node, found, ?_⟩
  rw [labelAt, found]
  rfl

@[simp] theorem label_outlineAt (doc : Document) (id : Nat) :
    (doc.outlineAt id).label = doc.labelAt id := by
  rw [outlineAt_eq, Outline.label_node]

@[simp] theorem children_outlineAt (doc : Document) (id : Nat) :
    (doc.outlineAt id).children = (doc.offspring id).map doc.outlineAt := by
  rw [outlineAt_eq, Outline.children_node]

theorem kind?_eq (inside : id < doc.size) : doc.kind? id = some (doc.outlineAt id).kind := by
  obtain ⟨node, found, same⟩ := exists_labelAt inside
  rw [kind?, found, Outline.kind, label_outlineAt, ← same]
  rfl

theorem hasKind_eq (inside : id < doc.size) (kind : Kind) :
    doc.hasKind kind id = ((doc.outlineAt id).kind == kind) := by
  rw [hasKind, kind?_eq inside]
  rfl

theorem literal?_eq (inside : id < doc.size) : doc.literal? id = (doc.labelAt id).literal := by
  obtain ⟨node, found, same⟩ := exists_labelAt inside
  rw [literal?, found, ← same]
  rfl

theorem ownText_eq (inside : id < doc.size) : doc.ownText id = (doc.labelAt id).ownText := by
  obtain ⟨node, found, same⟩ := exists_labelAt inside
  rw [ownText, found, Label.ownText, ← same]

end Labels

theorem join_visitText_tours {doc : Document} {ids : List Nat}
    (texts : ∀ id ∈ ids, String.join ((doc.tour id).map doc.visitText) =
      (doc.outlineAt id).leafText) :
    String.join ((ids.flatMap doc.tour).map doc.visitText) =
      Outline.leafTexts (ids.map doc.outlineAt) := by
  induction ids with
  | nil => rfl
  | cons id rest ih =>
    rw [List.flatMap_cons, List.map_append, String.join_append, texts id List.mem_cons_self,
      ih fun other member => texts other (List.mem_cons_of_mem id member)]
    rfl

theorem join_visitText_tour {doc : Document} {id : Nat} (inside : id < doc.size) :
    String.join ((doc.tour id).map doc.visitText) = (doc.outlineAt id).leafText := by
  induction id using doc.offspring_induction with
  | step id ih =>
    have below := join_visitText_tours fun child member =>
      ih child member (mem_offspring.mp member).1
    rw [tour_eq, outlineAt_eq, Outline.leafText, List.map_append, List.map_cons,
      String.join_append, String.join_cons, below, visitText, ownText_eq inside]
    simp [visitText]

theorem Grown.leafText_eq {doc : Document} (grown : Grown doc) {id : Nat}
    (placed : doc.Placed id) : doc.leafText id = .ok (doc.outlineAt id).leafText := by
  have visits : ((doc.tour id).map Except.ok).mapM (fun visit => visit) =
      (.ok (doc.tour id) : Except BrokenLink (List Visit)) := by
    rw [List.mapM_map]
    have pure := List.mapM_pure (m := Except BrokenLink) (l := doc.tour id) (f := fun visit => visit)
    rwa [List.map_id'] at pure
  rw [leafText, grown.walk_eq_tour placed, visits, ← join_visitText_tour placed.1]
  rfl

theorem Grown.mapM_leafText {doc : Document} (grown : Grown doc) {ids : List Nat}
    (placed : ∀ id ∈ ids, doc.Placed id) :
    ids.mapM doc.leafText = .ok (ids.map fun id => (doc.outlineAt id).leafText) := by
  induction ids with
  | nil => rfl
  | cons id rest ih =>
    rw [List.forall_mem_cons] at placed
    rw [List.mapM_cons, grown.leafText_eq placed.1, ih placed.2]
    rfl

theorem Grown.firstLeafText?_eq {doc : Document} (grown : Grown doc) {id : Nat}
    (placed : doc.Placed id) : doc.firstLeafText? id = (doc.outlineAt id).firstLeafText? := by
  have trail : ∃ ids, Trail (doc.along (·.firstChild)) (doc.firstChild? id) ids ∧
      (ids.find? fun below => (doc.kind? below).any Kind.isLeaf).bind doc.literal? =
        (doc.outlineAt id).firstLeafText? := by
    induction id using doc.offspring_induction with
    | step id ih =>
      rw [(grown.linked id placed.2).first, outlineAt_eq]
      cases children : doc.offspring id with
      | nil => exact ⟨[], .done, rfl⟩
      | cons child rest =>
        have member : child ∈ doc.offspring id := by simp [children]
        have inside := (mem_offspring.mp member).1
        obtain ⟨ids, further, found⟩ := ih child member (placed_of_mem member)
        refine ⟨child :: ids, .move further, ?_⟩
        rw [List.find?_cons, kind?_eq inside, List.map_cons, Outline.firstLeafText?, Option.any_some]
        cases leaf : (doc.outlineAt child).kind.isLeaf with
        | true => simp [literal?_eq inside]
        | false => simpa using found
  obtain ⟨ids, followed, found⟩ := trail
  rw [firstLeafText?, firstLeaf?, doc.follow_of_trail _ followed]
  exact found

/-- The link of the search down: to the first child where there is one, else to the next sibling. -/
def down (node : Node) : Option NodeId := node.firstChild.or node.next

theorem along_down {doc : Document} {id : Nat} (inside : id < doc.size) :
    doc.along down id = (doc.firstChild? id).or (doc.next? id) := by
  obtain ⟨node, found⟩ := exists_get? inside
  rw [along, firstChild?, next?, found]
  rfl

/-- The search down from the node that is due ends, goes over placed nodes and has this answer. -/
def Descends (doc : Document) (kind : Kind) (due : Option Nat) (answer : Option Outline) : Prop :=
  ∃ ids, Trail (doc.along down) due ids ∧ (∀ id ∈ ids, doc.Placed id) ∧
    (ids.find? (doc.hasKind kind)).map doc.outlineAt = answer

theorem Descends.move {doc : Document} {kind : Kind} {id : Nat} {answer : Option Outline}
    (placed : doc.Placed id) (further : doc.Descends kind (doc.along down id) answer) :
    doc.Descends kind (some id)
      (if (doc.outlineAt id).kind = kind then some (doc.outlineAt id) else answer) := by
  obtain ⟨ids, trail, all, found⟩ := further
  refine ⟨id :: ids, .move trail, List.forall_mem_cons.mpr ⟨placed, all⟩, ?_⟩
  rw [List.find?_cons, hasKind_eq placed.1]
  by_cases own : (doc.outlineAt id).kind = kind
  · rw [if_pos own, beq_iff_eq.mpr own]
    rfl
  · rw [if_neg own, beq_eq_false_iff_ne.mpr own]
    exact found

theorem Grown.descends_among {doc : Document} (grown : Grown doc) {id : Nat}
    (linked : Linked doc id) (kind : Kind)
    (below : ∀ child ∈ doc.offspring id,
      doc.Descends kind (doc.firstChild? child) ((doc.outlineAt child).findDescendant? kind))
    (before after : List Nat) (split : doc.offspring id = before ++ after) :
    doc.Descends kind after.head? (Outline.seekAmong? kind (after.map doc.outlineAt)) := by
  induction after generalizing before with
  | nil => exact ⟨[], .done, by simp, rfl⟩
  | cons child after ih =>
    have member : child ∈ doc.offspring id := by simp [split]
    have placed := placed_of_mem member
    have first := (grown.linked child placed.2).first
    rw [List.map_cons, Outline.seekAmong?, Outline.seek?_eq, children_outlineAt, List.isEmpty_map]
    apply Descends.move placed
    rw [along_down placed.1]
    cases children : doc.offspring child with
    | nil =>
      rw [children] at first
      rw [first, (linked.beside _ _ _ split).2]
      exact ih (before ++ [child]) (by simpa using split)
    | cons eldest rest =>
      have known := below child member
      rw [first, children] at known
      rw [first, children]
      exact known

theorem Grown.descends {doc : Document} (grown : Grown doc) (kind : Kind) {id : Nat}
    (placed : doc.Placed id) :
    doc.Descends kind (doc.firstChild? id) ((doc.outlineAt id).findDescendant? kind) := by
  induction id using doc.offspring_induction with
  | step id ih =>
    have linked := grown.linked id placed.2
    rw [linked.first, Outline.findDescendant?, children_outlineAt]
    exact grown.descends_among linked kind
      (fun child member => ih child member (placed_of_mem member)) [] _ rfl

/-- The search down the links finds the node that the search down the tree finds. -/
theorem Grown.findDescendant?_eq {doc : Document} (grown : Grown doc) (kind : Kind) {id : Nat}
    (placed : doc.Placed id) :
    (doc.findDescendant? id kind).map doc.outlineAt = (doc.outlineAt id).findDescendant? kind ∧
      ∀ found ∈ doc.findDescendant? id kind, doc.Placed found := by
  obtain ⟨ids, trail, all, found⟩ := grown.descends kind placed
  have followed := doc.follow_of_trail _ trail
  unfold down at followed
  rw [findDescendant?, followed]
  exact ⟨found, fun id present => all id (List.mem_of_find?_eq_some present)⟩

section Roles

variable {doc : Document} (grown : Grown doc) {id : Nat} (placed : doc.Placed id)

include grown placed

theorem Grown.isGroupItem_eq (group : Group) :
    doc.isGroupItem group id = decide ((doc.outlineAt id).group? = some group) := by
  have label : ((doc.firstChild? id).bind doc.firstLeafText?) =
      (doc.outlineAt id).children.head?.bind Outline.firstLeafText? := by
    rw [(grown.linked id placed.2).first, children_outlineAt]
    cases children : doc.offspring id with
    | nil => rfl
    | cons child rest =>
      have member : child ∈ doc.offspring id := by simp [children]
      exact grown.firstLeafText?_eq (placed_of_mem member)
  rw [isGroupItem, label, hasKind_eq placed.1, Outline.group?]
  by_cases item : (doc.outlineAt id).kind = .listItem
  · rw [if_pos item, beq_iff_eq.mpr item, Bool.true_and]
    cases text : (doc.outlineAt id).children.head?.bind Outline.firstLeafText? with
    | none => simp
    | some text =>
      rw [Option.bind_some, Bool.eq_iff_iff, decide_eq_true_iff, Group.ofLabel?_eq_some]
      simp
  · rw [if_neg item, beq_eq_false_iff_ne.mpr item]
    rfl

theorem Grown.headingToken?_eq (heading : (doc.outlineAt id).kind = .heading) :
    doc.headingToken? id = (doc.outlineAt id).firstLeafText? := by
  rw [headingToken?, hasKind_eq placed.1, beq_iff_eq.mpr heading, if_pos rfl,
    grown.firstLeafText?_eq placed]

theorem Grown.functionHeading?_eq (heading : (doc.outlineAt id).kind = .heading) :
    doc.functionHeading? id = .ok (if (doc.outlineAt id).topic = .function
      then some (doc.outlineAt id).leafText else none) := by
  rw [functionHeading?, grown.headingToken?_eq placed heading, grown.leafText_eq placed]
  simp only [Outline.topic, Topic.ofToken_eq_function]
  split_ifs <;> rfl

theorem Grown.fileHeading?_isSome (heading : (doc.outlineAt id).kind = .heading) :
    (doc.fileHeading? id).isSome = decide ((doc.outlineAt id).topic = .file) := by
  rw [fileHeading?, grown.headingToken?_eq placed heading, Outline.topic, Bool.eq_iff_iff,
    decide_eq_true_iff, Topic.ofToken_eq_file, Option.isSome_filter]
  cases (doc.outlineAt id).firstLeafText? <;> simp

end Roles

end Tangle.Document
