import Mathlib.Data.List.TakeWhile
import Tangle.Proofs.Document.Balance
import Tangle.Proofs.Document.Descent

/-!
Searches of a built document as searches of lists. Along siblings the links on either side lead
through the other children of the parent, so a search up to a boundary is one of that list up to the
first node of the boundary kind, and what a node finds on one side finds that node on the other.
Down from a node the search looks at the nodes below in document order up to the first dead end.
-/

namespace Tangle

theorem findM?_eq_find? {ε α : Type} {test : α → Except ε Bool} {holds : α → Bool} {list : List α}
    (each : ∀ a ∈ list, test a = .ok (holds a)) : list.findM? test = .ok (list.find? holds) := by
  induction list with
  | nil => rfl
  | cons a rest ih =>
    rw [List.forall_mem_cons] at each
    rw [List.findM?, each.1, ih each.2, List.find?_cons]
    cases holds a <;> rfl

/-- What is found before a boundary: none of those passed is wanted or the boundary. -/
theorem find?_takeWhile_eq_some {α : Type} {stops wanted : α → Bool} {list : List α} {found : α} :
    (list.takeWhile (!stops ·)).find? wanted = some found ↔
      wanted found ∧ ¬stops found ∧ ∃ near far, list = near ++ found :: far ∧
        ∀ passed ∈ near, ¬stops passed ∧ ¬wanted passed := by
  constructor
  · intro search
    obtain ⟨own, near, rest, split, missed⟩ := List.find?_eq_some_iff_append.mp search
    have before : ∀ a ∈ near ++ found :: rest, ¬stops a := by
      intro a member
      rw [← split] at member
      simpa using List.mem_takeWhile_imp member
    obtain ⟨far, whole⟩ := List.takeWhile_prefix (l := list) (!stops ·)
    refine ⟨own, before found (by simp), near, rest ++ far, ?_, ?_⟩
    · rw [← whole, split, List.append_assoc, List.cons_append]
    · intro passed member
      exact ⟨before passed (by simp [member]), by simpa using missed passed member⟩
  · rintro ⟨own, free, near, far, rfl, missed⟩
    have clear : ∀ passed ∈ near, !stops passed := by
      intro passed member
      simpa using (missed passed member).1
    rw [List.takeWhile_append_of_pos clear, List.takeWhile_cons, if_pos (by simpa using free),
      List.find?_append, List.find?_eq_none.mpr fun passed member => (missed passed member).2,
      List.find?_cons_of_pos own]
    rfl

namespace Document

def family (doc : Document) (id : NodeId) : List NodeId := (doc.parent? id).elim [] doc.children

def beside (doc : Document) (id : NodeId) : Direction → List NodeId
  | .forward => ((doc.family id).dropWhile (· != id)).tail
  | .backward => ((doc.family id).takeWhile (· != id)).reverse

def isWanted (doc : Document) (kind : Kind) (wanted : Option String) (id : NodeId) : Bool :=
  doc.hasKind kind id && wanted.all fun text => doc.leafText id = .ok text

/-- Two children of one node with none of the kind, and no boundary, between them. -/
def Consecutive (doc : Document) (kind boundary : Kind) (first second : NodeId) : Prop :=
  ∃ parent before between after,
    doc.offspring parent = before ++ first :: (between ++ second :: after) ∧
      ∀ id ∈ between, ¬doc.hasKind boundary id ∧ ¬doc.hasKind kind id

theorem isWanted_none (doc : Document) (kind : Kind) :
    doc.isWanted kind none = doc.hasKind kind := by
  funext id
  rw [isWanted, Option.all_none, Bool.and_true]

theorem hasKind_iff {doc : Document} {kind : Kind} {id : NodeId} (own : doc.hasKind kind id)
    (boundary : Kind) : doc.hasKind boundary id ↔ kind = boundary := by
  rw [hasKind, beq_iff_eq] at own ⊢
  rw [own, Option.some.injEq]

theorem below_of_outside {doc : Document} {id : Nat} (outside : doc.size ≤ id) :
    doc.below id = [] := by
  rw [below, walk, visits, get?_eq_none outside]
  rfl

namespace Built

variable {doc : Document} (built : Built doc)

include built

section Siblings

theorem beside_eq {parent id : Nat} {before after : List Nat}
    (split : doc.offspring parent = before ++ id :: after) :
    doc.beside id .forward = after ∧ doc.beside id .backward = before.reverse := by
  have member : id ∈ doc.offspring parent := by simp [split]
  have family : doc.family id = before ++ id :: after := by
    rw [Document.family, (mem_offspring.mp member).2.1, Option.elim_some, built.children_eq, split]
  have distinct := doc.offspring_nodup parent
  rw [split, List.nodup_append] at distinct
  have others : ∀ sibling ∈ before, sibling != id := by
    intro sibling present
    exact bne_iff_ne.mpr (distinct.2.2 sibling present id List.mem_cons_self)
  rw [beside, beside, family, List.dropWhile_append_of_pos others,
    List.takeWhile_append_of_pos others, List.dropWhile_cons, List.takeWhile_cons]
  simp

theorem alone_or_split (id : Nat) :
    (∀ direction, doc.beside id direction = [] ∧ (doc.get? id).bind direction.link = none) ∨
      ∃ parent before after, doc.offspring parent = before ++ id :: after := by
  have alone : doc.parent? id = none → doc.prev? id = none → doc.next? id = none →
      ∀ direction, doc.beside id direction = [] ∧ (doc.get? id).bind direction.link = none := by
    intro orphan first last direction
    have family : doc.family id = [] := by rw [Document.family, orphan, Option.elim_none]
    cases direction with
    | forward => exact ⟨by rw [beside, family]; rfl, last⟩
    | backward => exact ⟨by rw [beside, family]; rfl, first⟩
  by_cases inside : id < doc.size
  · by_cases start : id = root
    · subst start
      obtain ⟨first, last⟩ := built.grown.root_alone
      exact .inl (alone built.grown.root_spec.2 first last)
    · exact .inr (built.exists_split inside start)
  · have missing := get?_eq_none (Nat.le_of_not_lt inside)
    left
    apply alone
    · rw [parent?, missing, Option.bind_none]
    · rw [prev?, missing, Option.bind_none]
    · rw [next?, missing, Option.bind_none]

/-- The links to one side lead through the other children of the parent there and end. -/
theorem trail_beside (id : Nat) (direction : Direction) :
    Trail (doc.along direction.link) ((doc.get? id).bind direction.link)
      (doc.beside id direction) := by
  rcases built.alone_or_split id with alone | ⟨parent, before, after, split⟩
  · obtain ⟨none, unlinked⟩ := alone direction
    rw [none, unlinked]
    exact .done
  · have linked := built.linked parent
    obtain ⟨later, earlier⟩ := built.beside_eq split
    obtain ⟨prev, next⟩ := linked.beside before after id split
    cases direction with
    | forward =>
      have further := linked.trail_forward
        (by simpa using split : doc.offspring parent = (before ++ [id]) ++ after)
      rw [← next] at further
      rw [later]
      exact further
    | backward =>
      have further := linked.trail_backward split
      rw [← prev] at further
      rw [earlier]
      exact further

theorem siblings_eq (id : Nat) (direction : Direction) :
    doc.siblings id direction = doc.beside id direction :=
  doc.follow_of_trail _ (built.trail_beside id direction)

theorem readsAs_eq {id : Nat} (inside : id < doc.size) (wanted : Option String) :
    doc.readsAs wanted id = .ok (wanted.all fun text => doc.leafText id = .ok text) := by
  cases wanted with
  | none => rfl
  | some text =>
    rw [readsAs, built.grown.leafText_eq (built.placed inside), Option.all_some]
    simp [Functor.map, Except.map, beq_eq_decide]

theorem findBounded?_eq (id : Nat) (kind : Kind) (direction : Direction) (boundary : Kind)
    (wanted : Option String) : doc.findBounded? id kind direction boundary wanted =
      .ok (((doc.beside id direction).takeWhile fun sibling => !doc.hasKind boundary sibling).find?
        (doc.isWanted kind wanted)) := by
  have each : ∀ sibling ∈ (doc.siblingsBefore id direction boundary).filter (doc.hasKind kind),
      doc.readsAs wanted sibling =
        .ok (wanted.all fun text => doc.leafText sibling = .ok text) := by
    intro sibling member
    exact built.readsAs_eq (lt_size_of_hasKind (List.mem_filter.mp member).2) wanted
  rw [findBounded?, findM?_eq_find? each, List.find?_filter, siblingsBefore, built.siblings_eq]
  simp only [Bool.decide_and, Bool.decide_eq_true]
  rfl

theorem findBounded?_forward_iff {kind boundary : Kind} {first second : Nat} :
    doc.findBounded? first kind .forward boundary = .ok (some second) ↔
      doc.hasKind kind second ∧ ¬doc.hasKind boundary second ∧
        doc.Consecutive kind boundary first second := by
  rw [built.findBounded?_eq, Except.ok.injEq, find?_takeWhile_eq_some, isWanted_none]
  refine and_congr_right fun own => and_congr_right fun free => ?_
  constructor
  · rintro ⟨near, far, side, clear⟩
    rcases built.alone_or_split first with alone | ⟨parent, before, after, split⟩
    · simp [(alone .forward).1] at side
    · rw [(built.beside_eq split).1] at side
      exact ⟨parent, before, near, far, by rw [split, side], clear⟩
  · rintro ⟨parent, before, between, after, split, clear⟩
    exact ⟨between, after, (built.beside_eq split).1, clear⟩

theorem findBounded?_backward_iff {kind boundary : Kind} {first second : Nat} :
    doc.findBounded? second kind .backward boundary = .ok (some first) ↔
      doc.hasKind kind first ∧ ¬doc.hasKind boundary first ∧
        doc.Consecutive kind boundary first second := by
  rw [built.findBounded?_eq, Except.ok.injEq, find?_takeWhile_eq_some, isWanted_none]
  refine and_congr_right fun own => and_congr_right fun free => ?_
  constructor
  · rintro ⟨near, far, side, clear⟩
    rcases built.alone_or_split second with alone | ⟨parent, before, after, split⟩
    · simp [(alone .backward).1] at side
    · rw [(built.beside_eq split).2, List.reverse_eq_iff] at side
      refine ⟨parent, far.reverse, near.reverse, after, by simp [split, side], ?_⟩
      intro id member
      exact clear id (List.mem_reverse.mp member)
  · rintro ⟨parent, before, between, after, split, clear⟩
    have parted : doc.offspring parent = (before ++ first :: between) ++ second :: after := by
      simpa using split
    refine ⟨between.reverse, before.reverse, by simp [(built.beside_eq parted).2], ?_⟩
    intro id member
    exact clear id (List.mem_reverse.mp member)

end Siblings

section Below

theorem entered_tour_eq_below {id : Nat} (inside : id < doc.size) :
    entered (doc.tour id) = id :: doc.below id := by
  rw [entered_tour, built.grown.below_eq (built.placed inside)]

theorem below_eq_flatMap (id : Nat) :
    doc.below id = (doc.children id).flatMap fun child => child :: doc.below child := by
  by_cases inside : id < doc.size
  · have each : ∀ child ∈ doc.offspring id,
        entered (doc.tour child) = child :: doc.below child := by
      intro child member
      exact built.entered_tour_eq_below (placed_of_mem member).1
    rw [built.grown.below_eq (built.placed inside), built.children_eq, entered,
      List.filterMap_flatMap]
    exact List.flatMap_congr each
  · rw [below_of_outside (Nat.le_of_not_lt inside), built.children_eq,
      offspring_eq_nil (Nat.le_of_not_lt inside), List.flatMap_nil]

theorem entered_tour_nodup {id : Nat} (inside : id < doc.size) : (entered (doc.tour id)).Nodup := by
  refine List.Nodup.filterMap ?_ (built.tour_nodup inside)
  rintro ⟨first, - | -⟩ ⟨second, - | -⟩ node same same'
  · obtain rfl := Option.some.inj same
    obtain rfl := Option.some.inj same'
    rfl
  all_goals simp [Visit.entered?] at same same'

theorem below_nodup (id : Nat) : (doc.below id).Nodup := by
  by_cases inside : id < doc.size
  · have distinct := built.entered_tour_nodup inside
    rw [built.entered_tour_eq_below inside] at distinct
    exact (List.nodup_cons.mp distinct).2
  · rw [below_of_outside (Nat.le_of_not_lt inside)]
    exact List.nodup_nil

theorem mem_below_iff {id node : Nat} : node ∈ doc.below id ↔ doc.Within id node ∧ node ≠ id := by
  by_cases inside : id < doc.size
  · have enters := built.entered_tour_eq_below inside
    have distinct := built.entered_tour_nodup inside
    rw [enters, List.nodup_cons] at distinct
    have visited : doc.Within id node ↔ node ∈ id :: doc.below id := by
      rw [← enters, mem_entered, built.mem_tour_iff inside]
    rw [visited, List.mem_cons]
    constructor
    · intro member
      refine ⟨.inr member, ?_⟩
      rintro rfl
      exact distinct.1 member
    · rintro ⟨rfl | member, other⟩
      · exact absurd rfl other
      · exact member
  · rw [below_of_outside (Nat.le_of_not_lt inside)]
    refine iff_of_false (List.not_mem_nil) ?_
    rintro ⟨within, other⟩
    cases within with
    | start => exact other rfl
    | @child above _ within named =>
      have bound := built.link_resolves .parent node above named
      have upper := built.within_le within
      omega

theorem exists_deadEnd_below {id : Nat} (some : doc.children id ≠ []) :
    ∃ stop ∈ doc.below id, doc.isDeadEnd stop := by
  rw [built.children_eq] at some
  have inside : id < doc.size := by
    by_contra outside
    exact some (offspring_eq_nil (Nat.le_of_not_lt outside))
  rw [built.grown.below_eq (built.placed inside)]
  exact built.grown.exists_deadEnd (built.placed inside) some

theorem trail_examined (id : Nat) :
    Trail (doc.along down) (doc.firstChild? id) (through doc.isDeadEnd (doc.below id)) := by
  by_cases inside : id < doc.size
  · rw [built.grown.below_eq (built.placed inside)]
    exact built.grown.trail_down (built.placed inside)
  · have first : doc.firstChild? id = none := by
      rw [firstChild?, get?_eq_none (Nat.le_of_not_lt inside), Option.bind_none]
    rw [below_of_outside (Nat.le_of_not_lt inside), first]
    exact .done

theorem findDescendant?_eq_through (id : Nat) (kind : Kind) : doc.findDescendant? id kind =
    (through doc.isDeadEnd (doc.below id)).find? (doc.hasKind kind) := by
  have followed := doc.follow_of_trail _ (built.trail_examined id)
  unfold down at followed
  rw [findDescendant?, followed]

theorem find?_below_of_findDescendant? {id found : Nat} {kind : Kind}
    (search : doc.findDescendant? id kind = some found) :
    (doc.below id).find? (doc.hasKind kind) = some found := by
  rw [built.findDescendant?_eq_through, find?_through] at search
  split_ifs at search
  exact search

end Below

end Built

/--
A search along siblings ends and succeeds on either side, with or without a text that is wanted. It
is the search of the other children of the parent on that side, cut before the first of the boundary
kind. Where no text is wanted, of two nodes of a kind the first one finds the second if and only if
the second one finds the first on its other side.
-/
theorem bounded_search_of_siblings {doc : Document} (built : Built doc) :
    (∀ id direction, Trail (doc.along direction.link) ((doc.get? id).bind direction.link)
      (doc.beside id direction)) ∧
    (∀ id kind direction boundary wanted, doc.findBounded? id kind direction boundary wanted =
      .ok (((doc.beside id direction).takeWhile fun sibling => !doc.hasKind boundary sibling).find?
        fun sibling => doc.hasKind kind sibling &&
          wanted.all fun text => doc.leafText sibling = .ok text)) ∧
    (∀ id kind direction wanted, doc.findBounded? id kind direction kind wanted = .ok none) ∧
    ∀ first second kind boundary, doc.hasKind kind first → doc.hasKind kind second →
      (doc.findBounded? first kind .forward boundary = .ok (some second) ↔
        doc.findBounded? second kind .backward boundary = .ok (some first)) := by
  refine ⟨built.trail_beside, built.findBounded?_eq, ?_, ?_⟩
  · intro id kind direction wanted
    rw [built.findBounded?_eq, Except.ok.injEq, List.find?_eq_none]
    intro sibling member
    have other := List.mem_takeWhile_imp member
    simp only [Bool.not_eq_true'] at other
    simp [isWanted, other]
  · intro first second kind boundary own beside
    rw [built.findBounded?_forward_iff, built.findBounded?_backward_iff, hasKind_iff own boundary,
      hasKind_iff beside boundary]
    simp only [own, beside]

def twoSections : Document :=
  ofOutlines [.heading 2 [.leaf .text "one".toList],
    .branch .paragraph [.leaf .text "prose".toList], .leaf .codeBlock "a".toList,
    .branch .paragraph [.leaf .text "more".toList], .leaf .codeBlock "b".toList,
    .heading 2 [.leaf .text "two".toList], .leaf .codeBlock "c".toList]

theorem bounded_search_of_siblings_twoSections : Built twoSections ∧
    twoSections.beside 8 .backward = [6, 5, 3, 1] ∧
    Trail (twoSections.along Direction.backward.link) (some 6) [6, 5, 3, 1] ∧
    twoSections.findBounded? 8 .paragraph .backward .heading (some "prose") = .ok (some 3) ∧
    twoSections.findBounded? 8 .codeBlock .forward .heading = .ok none ∧
    twoSections.findBounded? 8 .heading .backward .heading = .ok none ∧
    twoSections.findBounded? 5 .codeBlock .forward .heading = .ok (some 8) := by
  have built : Built twoSections := built_ofOutlines _
  obtain ⟨links, searches, none, dual⟩ := bounded_search_of_siblings built
  have back : twoSections.findBounded? 8 .codeBlock .backward .heading = .ok (some 5) := by decide
  refine ⟨built, by decide, links 8 .backward, (searches ..).trans (by decide),
    (searches ..).trans (by decide), none .., ?_⟩
  exact (dual 5 8 .codeBlock .heading (by decide) (by decide)).mpr back

/--
The search down from a node looks at the nodes below it in document order, up to the first one with
neither a child nor a sibling after it, and gives the first of these of the wanted kind. Below a
node with children there always is such a one. So what the search finds stands below the node, and
is the first of its kind there.
-/
theorem search_down_ends_at_dead_end {doc : Document} (built : Built doc) (id : NodeId)
    (kind : Kind) :
    doc.below id = (doc.children id).flatMap (fun child => child :: doc.below child) ∧
    (∀ node, node ∈ doc.below id ↔ doc.Within id node ∧ node ≠ id) ∧
    (doc.children id ≠ [] → ∃ stop ∈ doc.below id, doc.isDeadEnd stop) ∧
    Trail (doc.along down) (doc.firstChild? id) (through doc.isDeadEnd (doc.below id)) ∧
    doc.findDescendant? id kind =
      (through doc.isDeadEnd (doc.below id)).find? (doc.hasKind kind) ∧
    ∀ found ∈ doc.findDescendant? id kind, doc.Within id found ∧ found ≠ id ∧
      (doc.below id).find? (doc.hasKind kind) = some found := by
  refine ⟨built.below_eq_flatMap id, fun _ => built.mem_below_iff, built.exists_deadEnd_below,
    built.trail_examined id, built.findDescendant?_eq_through id kind, ?_⟩
  intro found search
  have first := built.find?_below_of_findDescendant? search
  obtain ⟨within, other⟩ := built.mem_below_iff.mp (List.mem_of_find?_eq_some first)
  exact ⟨within, other, first⟩

theorem search_down_ends_at_dead_end_decorated : Built decorated ∧
    Trail (decorated.along down) (some 11) [11, 12, 13] ∧
    decorated.below 10 = [11, 12, 13, 14, 15] ∧
    decorated.findDescendant? 10 .codeSpan = none ∧
    decorated.findDescendant? 6 .codeSpan = some 9 ∧ decorated.Within 6 9 ∧
    (decorated.below 6).find? (decorated.hasKind .codeSpan) = some 9 := by
  have built : Built decorated := built_ofOutlines _
  have known : decorated.findDescendant? 6 .codeSpan = some 9 := by decide
  obtain ⟨-, -, -, way, searched, -⟩ := search_down_ends_at_dead_end built 10 .codeSpan
  obtain ⟨-, -, -, -, -, found⟩ := search_down_ends_at_dead_end built 6 .codeSpan
  obtain ⟨within, -, first⟩ := found 9 known
  have examined : through decorated.isDeadEnd (decorated.below 10) = [11, 12, 13] := by decide
  rw [examined] at way searched
  exact ⟨built, way, by decide, searched.trans (by decide), known, within, first⟩

end Document

end Tangle
