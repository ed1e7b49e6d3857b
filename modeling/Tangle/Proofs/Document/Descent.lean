import Tangle.Proofs.Document.Breaking
import Tangle.Proofs.Document.Numbering
import Tangle.Proofs.Document.Reading

/-!
The search down and the order of the document. The search goes on as a walk does as long as there is
a child or a next sibling to go to, and where a walk would climb back it ends. So it looks at the
nodes below a node in document order up to the first one with neither, and what it finds is the
first node of its kind, or nothing if such a dead end comes before it.
-/

namespace Tangle

def through {α : Type} (ends : α → Bool) : List α → List α
  | [] => []
  | first :: rest => if ends first then [first] else first :: through ends rest

theorem through_append {α : Type} {ends : α → Bool} {first : List α} (stops : ∃ a ∈ first, ends a)
    (rest : List α) : through ends (first ++ rest) = through ends first := by
  induction first with
  | nil => simp at stops
  | cons a first ih =>
    rw [List.cons_append, through, through]
    cases own : ends a with
    | true => rfl
    | false =>
      have later : ∃ b ∈ first, ends b := by simpa [own] using stops
      simp [ih later]

theorem find?_through {α : Type} (ends wanted : α → Bool) (list : List α) :
    (through ends list).find? wanted =
      if (list.takeWhile (!wanted ·)).any ends then none else list.find? wanted := by
  induction list with
  | nil => rfl
  | cons a rest ih =>
    rw [through, List.takeWhile_cons, List.find?_cons]
    cases own : wanted a with
    | true => cases ends a <;> simp [own]
    | false => cases stop : ends a <;> simp [own, stop, ih]

namespace Document

def below (doc : Document) (id : NodeId) : List NodeId :=
  ((doc.walk id).filterMap fun visit => visit.toOption.bind Visit.entered?).tail

def isDeadEnd (doc : Document) (id : NodeId) : Bool :=
  (doc.firstChild? id).isNone && (doc.next? id).isNone

section Descent

variable {doc : Document} (grown : Grown doc)

include grown

theorem Grown.below_eq {id : Nat} (placed : doc.Placed id) :
    doc.below id = entered ((doc.offspring id).flatMap doc.tour) := by
  have enters : (doc.walk id).filterMap (fun visit => visit.toOption.bind Visit.entered?) =
      entered (doc.tour id) := by
    rw [grown.walk_eq_tour placed, List.filterMap_map]
    rfl
  rw [Document.below, enters, entered_tour, List.tail_cons]

/-- Wherever there are children there is a dead end below: the way along last children has one. -/
theorem Grown.exists_deadEnd {id : Nat} (placed : doc.Placed id) (some : doc.offspring id ≠ []) :
    ∃ stop ∈ entered ((doc.offspring id).flatMap doc.tour), doc.isDeadEnd stop := by
  induction id using doc.offspring_induction with
  | step id ih =>
    obtain ⟨others, last, split⟩ := (List.eq_nil_or_concat _).resolve_left some
    rw [List.concat_eq_append] at split
    have member : last ∈ doc.offspring id := by simp [split]
    have inside := placed_of_mem member
    have final : doc.next? last = none := ((grown.linked id placed.2).beside _ _ _ split).2
    have reached : ∀ stop ∈ entered (doc.tour last),
        stop ∈ entered ((doc.offspring id).flatMap doc.tour) := by
      intro stop present
      simp [split, present]
    by_cases childless : doc.offspring last = []
    · have first := (grown.linked last inside.2).first
      refine ⟨last, reached last (by simp [entered_tour]), ?_⟩
      simp [isDeadEnd, first, childless, final]
    · obtain ⟨stop, present, ends⟩ := ih last member inside childless
      exact ⟨stop, reached stop (by simp [entered_tour, present]), ends⟩

theorem Grown.trail_down_among {id : Nat} (linked : Linked doc id)
    (below : ∀ child ∈ doc.offspring id, Trail (doc.along down) (doc.firstChild? child)
      (through doc.isDeadEnd (entered ((doc.offspring child).flatMap doc.tour))))
    (before after : List Nat) (split : doc.offspring id = before ++ after) :
    Trail (doc.along down) after.head?
      (through doc.isDeadEnd (entered (after.flatMap doc.tour))) := by
  induction after generalizing before with
  | nil => exact .done
  | cons child after ih =>
    have member : child ∈ doc.offspring id := by simp [split]
    have placed := placed_of_mem member
    have first := (grown.linked child placed.2).first
    have next := (linked.beside _ _ _ split).2
    have known := below child member
    rw [List.head?_cons, List.flatMap_cons, entered_append, entered_tour, List.cons_append, through]
    cases children : doc.offspring child with
    | nil =>
      rw [children] at first
      cases after with
      | nil =>
        have stuck : doc.isDeadEnd child := by simp [isDeadEnd, first, next]
        rw [if_pos stuck]
        refine .move ?_
        rw [along_down placed.1, first, next]
        exact .done
      | cons sibling after =>
        have free : ¬doc.isDeadEnd child := by simp [isDeadEnd, next]
        rw [if_neg free]
        refine .move ?_
        rw [along_down placed.1, first, next]
        exact ih (before ++ [child]) (by simpa using split)
    | cons eldest rest =>
      have free : ¬doc.isDeadEnd child := by simp [isDeadEnd, first, children]
      have stops := grown.exists_deadEnd placed (by simp [children])
      rw [children] at first known stops
      rw [first] at known
      rw [if_neg free, through_append stops]
      refine .move ?_
      rw [along_down placed.1, first]
      exact known

/-- The search looks at the nodes below in document order, up to the first dead end. -/
theorem Grown.trail_down {id : Nat} (placed : doc.Placed id) :
    Trail (doc.along down) (doc.firstChild? id)
      (through doc.isDeadEnd (entered ((doc.offspring id).flatMap doc.tour))) := by
  induction id using doc.offspring_induction with
  | step id ih =>
    have linked := grown.linked id placed.2
    rw [linked.first]
    exact grown.trail_down_among linked
      (fun child member => ih child member (placed_of_mem member)) [] _ rfl

theorem Grown.findDescendant?_eq_find? (kind : Kind) {id : Nat} (placed : doc.Placed id) :
    doc.findDescendant? id kind =
      if ((doc.below id).takeWhile (!doc.hasKind kind ·)).any doc.isDeadEnd then none
      else (doc.below id).find? (doc.hasKind kind) := by
  have followed := doc.follow_of_trail _ (grown.trail_down placed)
  unfold down at followed
  rw [findDescendant?, followed, find?_through, grown.below_eq placed]

end Descent

def firstCodeText? (doc : Document) (item : NodeId) : Except BrokenLink (Option String) :=
  match (doc.below item).find? (doc.hasKind .codeSpan) with
  | some code => some <$> doc.leafText code
  | none => .ok none

/-- The first code span below an item, if there is one, comes before any dead end. -/
def ReachesCode (doc : Document) (item : NodeId) : Prop :=
  (doc.below item).any (doc.hasKind .codeSpan) →
    ∀ id ∈ (doc.below item).takeWhile (!doc.hasKind .codeSpan ·), ¬doc.isDeadEnd id

theorem Built.firstCodeText?_eq {doc : Document} (built : Built doc) (item : NodeId) :
    if (doc.below item).any (doc.hasKind .codeSpan)
    then ∃ text, doc.firstCodeText? item = .ok (some text)
    else doc.firstCodeText? item = .ok none := by
  unfold firstCodeText?
  cases found : (doc.below item).find? (doc.hasKind .codeSpan) with
  | none =>
    rw [List.find?_eq_none] at found
    rw [if_neg (by simpa using found)]
  | some code =>
    have span := List.find?_some found
    have member := List.mem_of_find?_eq_some found
    have placed := built.placed (lt_size_of_hasKind span)
    rw [if_pos (List.any_eq_true.mpr ⟨code, member, span⟩)]
    exact ⟨_, congrArg (some <$> ·) (built.grown.leafText_eq placed)⟩

/--
Of an item under the label of a group the text of the first code span below it is taken if no dead
end comes before that code span. If one does, the item has no text although it has a code span.
-/
theorem entry_is_first_code_iff {doc : Document} (built : Built doc) (group : Group)
    {item label : NodeId} (own : doc.hasKind .listItem item)
    (nearest : doc.findAncestor? item .listItem = some label)
    (opens : doc.isGroupItem group label) :
    (doc.entryText? group item = doc.firstCodeText? item ↔ doc.ReachesCode item) ∧
    (¬doc.ReachesCode item → doc.entryText? group item = .ok none ∧
      ∃ text, doc.firstCodeText? item = .ok (some text)) := by
  have placed := built.placed (lt_size_of_hasKind own)
  have under : doc.isUnderGroup group item := by simp [isUnderGroup, own, nearest, opens]
  have searched := built.grown.findDescendant?_eq_find? .codeSpan placed
  have first := built.firstCodeText?_eq item
  by_cases ended : ((doc.below item).takeWhile (!doc.hasKind .codeSpan ·)).any doc.isDeadEnd
  · have lost : doc.entryText? group item = .ok none := by
      rw [entryText?, if_pos under, searched, if_pos ended]
    obtain ⟨stop, member, stuck⟩ := List.any_eq_true.mp ended
    by_cases code : (doc.below item).any (doc.hasKind .codeSpan)
    · rw [if_pos code] at first
      have missed : ¬doc.ReachesCode item := fun reaches => reaches code stop member stuck
      obtain ⟨text, known⟩ := first
      refine ⟨iff_of_false ?_ missed, fun _ => ⟨lost, text, known⟩⟩
      rw [lost, known]
      simp
    · rw [if_neg code] at first
      have reaches : doc.ReachesCode item := fun present => absurd present code
      exact ⟨iff_of_true (lost.trans first.symm) reaches, absurd reaches⟩
  · have taken : doc.entryText? group item = doc.firstCodeText? item := by
      rw [entryText?, if_pos under, searched, if_neg ended]
      rfl
    have reaches : doc.ReachesCode item := by
      intro _ id member stuck
      exact ended (List.any_eq_true.mpr ⟨id, member, stuck⟩)
    exact ⟨iff_of_true taken reaches, absurd reaches⟩

def decorated : Document :=
  ofOutlines [.branch .list [.branch .listItem [
    .branch .paragraph [.leaf .text "parameters".toList], .branch .list [
      .branch .listItem [.branch .paragraph [.leaf .text "in ".toList, .leaf .codeSpan "a".toList]],
      .branch .listItem [.branch .paragraph [.branch .strong [.leaf .text "in".toList],
        .leaf .text " ".toList, .leaf .codeSpan "b".toList]]]]]]

theorem entry_is_first_code_iff_decorated : Built decorated ∧
    decorated.hasKind .listItem 6 ∧ decorated.findAncestor? 6 .listItem = some 2 ∧
    decorated.isGroupItem .parameters 2 ∧ decorated.ReachesCode 6 ∧
    decorated.entryText? .parameters 6 = decorated.firstCodeText? 6 := by
  have built : Built decorated := built_ofOutlines _
  have reaches : decorated.ReachesCode 6 := by
    unfold ReachesCode
    decide
  have nearest : decorated.findAncestor? 6 .listItem = some 2 := by decide
  refine ⟨built, by decide, nearest, by decide, reaches, ?_⟩
  exact (entry_is_first_code_iff built .parameters (by decide) nearest (by decide)).1.mpr reaches

/-- A decorated word before the code span leaves a parameter without its text. -/
theorem entry_lost_after_strong : decorated.hasKind .listItem 10 ∧
    decorated.findAncestor? 10 .listItem = some 2 ∧ decorated.isGroupItem .parameters 2 ∧
    decorated.firstCodeText? 10 = .ok (some "b") ∧
    decorated.entryText? .parameters 10 = .ok none := by
  decide

end Document

end Tangle
