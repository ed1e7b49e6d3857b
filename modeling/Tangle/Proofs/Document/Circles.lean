import Tangle.Proofs.Document.Attachment
import Tangle.Proofs.Document.Descent

/-!
Nodes added below any positions, taken or not. The sibling before a new node is looked up while the
position of the node is still free, its parent when the node is there. A node that is added below a
position further on is linked to nothing, but one that is added below its own position becomes its
own only child, and a walk that enters it enters it again. This is the one way in which links go
round in circles: from all other nodes they lead on to later positions, and what follows them ends.
-/

namespace Tangle

section Halting

variable {σ : Type} {step : σ → Option σ} {due : Option σ} {states : List σ}

def halted (stops : σ → Bool) (step : σ → Option σ) (state : σ) : Option σ :=
  if stops state then none else step state

theorem Trail.halted (stops : σ → Bool) (trail : Trail step due states) :
    Trail (halted stops step) due (through stops states) := by
  induction trail with
  | done => exact .done
  | @move state rest further ih =>
    rw [through]
    split_ifs with stopped
    · apply Trail.move
      rw [Tangle.halted, if_pos stopped]
      exact .done
    · apply Trail.move
      rw [Tangle.halted, if_neg stopped]
      exact ih

/-- A step that leads back to the state it is made from is made for ever. -/
theorem Trail.not_of_fixed {state : σ} (fixed : step state = some state) (states : List σ) :
    ¬Trail step (some state) states := by
  intro trail
  have distinct := trail.nodup
  cases trail with
  | move further =>
    rw [fixed] at further
    cases further with
    | move _ => exact (List.nodup_cons.mp distinct).1 List.mem_cons_self

end Halting

namespace Document

def isLeaf (doc : Document) (id : NodeId) : Bool := (doc.kind? id).any Kind.isLeaf

def Finds (doc : Document) (way : Node → Option NodeId) (wanted : NodeId → Bool)
    (first found : Option NodeId) : Prop :=
  ∃ ids, Trail (halted wanted (doc.along way)) first ids ∧ found = ids.find? wanted

/-- Whatever starts at a node and follows links down and on from it comes to an end. -/
structure Ending (doc : Document) (id : NodeId) : Prop where
  walk : ∃ visits, Trail (doc.onwards id) (some ⟨id, .enter⟩) visits ∧
    doc.walk id = visits.map doc.resolve
  children : Trail (doc.along (·.next)) (doc.firstChild? id) (doc.children id)
  firstLeaf : doc.Finds (·.firstChild) doc.isLeaf (doc.firstChild? id) (doc.firstLeaf? id)
  descendant : ∀ kind, doc.Finds down (doc.hasKind kind) (doc.firstChild? id)
    (doc.findDescendant? id kind)

theorem lt_size_of_along {doc : Document} {way : Node → Option NodeId} {id : Nat}
    (leads : (doc.along way id).isSome) : id < doc.size := by
  unfold along at leads
  cases found : doc.get? id with
  | none => simp [found] at leads
  | some node => exact lt_size_of_get? found

/-- The bound on a chain cuts off nothing that a search which ends would look at. -/
theorem find?_follow (doc : Document) (way : Node → Option NodeId) (wanted : NodeId → Bool)
    {due : Option NodeId} {ids : List NodeId}
    (trail : Trail (halted wanted (doc.along way)) due ids) :
    (doc.follow way due).find? wanted = ids.find? wanted := by
  have bounded : ∀ id, (halted wanted (doc.along way) id).isSome → id < doc.size := by
    intro id leads
    unfold halted at leads
    split_ifs at leads
    · cases leads
    · exact lt_size_of_along leads
  have enough := trail.length_le id Function.injective_id doc.size bounded
  unfold follow
  generalize doc.size + 1 = steps at enough ⊢
  induction trail generalizing steps with
  | done => cases steps <;> rfl
  | @move id rest further ih =>
    cases steps with
    | zero => simp at enough
    | succ steps =>
      simp only [List.length_cons, Nat.add_le_add_iff_right] at enough
      have later := ih steps enough
      rw [chain, List.find?_cons, List.find?_cons]
      cases own : wanted id with
      | true => rfl
      | false =>
        rw [halted, own] at later
        exact later

theorem Finds.of_trail {doc : Document} {way : Node → Option NodeId} (wanted : NodeId → Bool)
    {first : Option NodeId} {ids : List NodeId} (trail : Trail (doc.along way) first ids) :
    doc.Finds way wanted first ((doc.follow way first).find? wanted) :=
  ⟨_, trail.halted wanted, doc.find?_follow way wanted (trail.halted wanted)⟩

theorem lastChild?_of_outside {doc : Document} {id : Nat} (outside : doc.size ≤ id) :
    doc.lastChild? id = none := by
  rw [(linked_of_outside outside).last, offspring_eq_nil outside, List.getLast?_nil]

section Positions

variable {doc : Document} (grown : Grown doc)

include grown

theorem Grown.next?_spec {id target : Nat} (next : doc.next? id = some target) :
    id < target ∧ target < doc.size := by
  induction grown with
  | empty =>
    rw [next?, get?_empty] at next
    split_ifs at next <;> simp at next
  | @append doc grown parent label ih =>
    have inside : id < doc.size + 1 := by
      have bound := lt_size_of_link? .next next
      rwa [size_append] at bound
    rw [size_append]
    by_cases new : id = doc.size
    · rw [new, next?, grown.get?_append, if_pos rfl, Option.bind_some, added_next] at next
      cases next
    · rw [grown.next?_append parent label id (by omega)] at next
      split_ifs at next
      · obtain rfl := Option.some.inj next
        omega
      · have earlier := ih next
        omega

theorem Grown.firstChild?_of_own {id : Nat} (own : doc.parent? id = some id) :
    doc.firstChild? id = some id := by
  induction grown with
  | empty =>
    rw [parent?, get?_empty] at own
    split_ifs at own <;> simp at own
  | @append doc grown parent label ih =>
    have inside : id < doc.size + 1 := by
      have bound := lt_size_of_link? .parent own
      rwa [size_append] at bound
    rw [grown.parent?_append] at own
    by_cases new : id = doc.size
    · rw [if_pos new, Option.some.injEq] at own
      rw [new, firstChild?, grown.get?_append, if_pos rfl, Option.bind_some, added_firstChild,
        if_pos (own.trans new)]
    · rw [if_neg new] at own
      rw [grown.firstChild?_append parent label id (by omega), ih own]
      split_ifs <;> rfl

theorem Grown.firstChild?_spec {id target : Nat} (first : doc.firstChild? id = some target) :
    if doc.parent? id = some id then target = id else id < target ∧ doc.Placed target := by
  split_ifs with own
  · rw [grown.firstChild?_of_own own] at first
    exact (Option.some.inj first).symm
  · rw [(grown.linked id own).first] at first
    have member : target ∈ doc.offspring id := List.mem_of_head? first
    exact ⟨(mem_offspring.mp member).2.2, placed_of_mem member⟩

theorem Grown.trail_next (id : Nat) :
    Trail (doc.along (·.next)) (doc.firstChild? id) (doc.children id) := by
  have ends : ∃ ids, Trail (doc.along (·.next)) (doc.firstChild? id) ids := by
    cases doc.firstChild? id with
    | none => exact ⟨[], .done⟩
    | some child =>
      have further : ∃ ids, Trail (doc.along (·.next)) (some child) ids ∧ ∀ other ∈ ids, True := by
        apply Trail.exists_of_rank (fun node => doc.size - node) _ trivial
        intro node _ sibling next
        have bounds := grown.next?_spec next
        exact ⟨trivial, by omega⟩
      exact further.imp fun _ trail => trail.1
  obtain ⟨ids, trail⟩ := ends
  rw [children, doc.follow_of_trail _ trail]
  exact trail

/-- First children of a node that is not its own parent lead down to one without children. -/
theorem Grown.trail_firstChild {id : Nat} (placed : doc.Placed id) :
    ∃ ids, Trail (doc.along (·.firstChild)) (doc.firstChild? id) ids := by
  have down : ∃ ids, Trail (doc.along (·.firstChild)) (some id) ids ∧
      ∀ other ∈ ids, doc.Placed other := by
    apply Trail.exists_of_rank (fun node => doc.size - node) _ placed
    intro node placed child first
    have below := grown.firstChild?_spec first
    rw [if_neg placed.2] at below
    have inside := below.2.1
    exact ⟨below.2, by omega⟩
  obtain ⟨ids, trail, -⟩ := down
  cases trail with
  | move further => exact ⟨_, further⟩

theorem Grown.ending {id : Nat} (placed : doc.Placed id) : doc.Ending id where
  walk := by
    have trail := grown.trail_of_tour placed
    exact ⟨doc.tour id, trail, doc.walk_of_trail id trail⟩
  children := grown.trail_next id
  firstLeaf := by
    obtain ⟨ids, trail⟩ := grown.trail_firstChild placed
    exact .of_trail doc.isLeaf trail
  descendant := fun kind => .of_trail (doc.hasKind kind) (grown.trail_down placed)

theorem Grown.not_ending {id : Nat} (own : doc.parent? id = some id) : ¬doc.Ending id := by
  intro ending
  obtain ⟨visits, trail, -⟩ := ending.walk
  have first := grown.firstChild?_of_own own
  obtain ⟨node, found, same⟩ := Option.bind_eq_some_iff.mp first
  have fixed : doc.onwards id ⟨id, .enter⟩ = some ⟨id, .enter⟩ := by
    rw [onwards, found, Option.bind_some, after, same]
  exact Trail.not_of_fixed fixed visits trail

theorem Grown.ending_iff {id : Nat} (inside : id < doc.size) :
    doc.Ending id ↔ doc.parent? id ≠ some id := by
  constructor
  · intro ending own
    exact grown.not_ending own ending
  · intro placed
    exact grown.ending ⟨inside, placed⟩

theorem Grown.get?_append_outside {parent : Nat} (outside : doc.size ≤ parent) (label : Label)
    {id : Nat} (inside : id < doc.size) :
    (doc.append parent label).get? id = doc.get? id := by
  obtain ⟨node, found⟩ := exists_get? inside
  have other : parent ≠ id := by omega
  rw [grown.get?_append, if_neg (by omega), found, Option.map_some, relink,
    lastChild?_of_outside outside]
  simp [other]

theorem Grown.get?_append_loose {parent : Nat} (outside : doc.size ≤ parent) (label : Label) :
    (doc.append parent label).get? doc.size = some { label with parent := some parent } ↔
      parent ≠ doc.size := by
  rw [grown.get?_append, if_pos rfl, added, lastChild?_of_outside outside]
  by_cases own : parent = doc.size
  · simp [own, Node.adopt]
  · simp [own]

end Positions

theorem forall_parent?_grow {additions : List Addition} :
    (∀ id, (grow additions).parent? id ≠ some id) ↔
      ∀ index addition, additions[index]? = some addition → addition.parent ≠ index + 1 := by
  constructor
  · intro placed index addition added own
    apply placed (index + 1)
    rw [parent?_grow, added, Option.map_some, own]
  · intro elsewhere id own
    cases id with
    | zero =>
      have orphan := (grown_grow additions).root_spec.2
      rw [root] at orphan
      rw [orphan] at own
      cases own
    | succ index =>
      rw [parent?_grow] at own
      obtain ⟨addition, added, same⟩ := Option.map_eq_some_iff.mp own
      exact elsewhere index addition added same

/--
Nodes are added below any positions. Links to next siblings always lead on to later positions, and
so do links to first children but for those of nodes that were added below their own positions: such
a node is its own first child. A node added below a position that is not taken leaves all others as
they are, and is linked to nothing if that position is not its own. Walks and searches end from just
those nodes that are not their own parents. So links lead on and everything ends wherever it starts
if and only if no node is added below its own position.
-/
theorem leads_on_iff_no_own_child (additions : List Addition) :
    let doc := grow additions
    (∀ id target : Nat, doc.next? id = some target → id < target) ∧
    (∀ id target : Nat, doc.firstChild? id = some target →
      if doc.parent? id = some id then target = id else id < target) ∧
    (∀ parent label, doc.size ≤ parent →
      (∀ id, id < doc.size → (doc.append parent label).get? id = doc.get? id) ∧
      ((doc.append parent label).get? doc.size = some { label with parent := some parent } ↔
        parent ≠ doc.size)) ∧
    (∀ id, Trail (doc.along (·.next)) (doc.firstChild? id) (doc.children id)) ∧
    (∀ id, id < doc.size → (doc.Ending id ↔ doc.parent? id ≠ some id)) ∧
    ((∀ id target : Nat, doc.firstChild? id = some target → id < target) ∧
        (∀ id, id < doc.size → doc.Ending id) ↔
      ∀ index addition, additions[index]? = some addition → addition.parent ≠ index + 1) := by
  intro doc
  have grown : Grown doc := grown_grow additions
  refine ⟨fun id target next => (grown.next?_spec next).1, ?_, ?_, grown.trail_next,
    fun id inside => grown.ending_iff inside, ?_⟩
  · intro id target first
    have known := grown.firstChild?_spec first
    split_ifs at known ⊢
    · exact known
    · exact known.1
  · intro parent label outside
    exact ⟨fun id inside => grown.get?_append_outside outside label inside,
      grown.get?_append_loose outside label⟩
  · rw [← forall_parent?_grow]
    constructor
    · rintro ⟨-, ends⟩ id own
      exact grown.not_ending own (ends id (lt_size_of_link? .parent own))
    · intro placed
      constructor
      · intro id target first
        have known := grown.firstChild?_spec first
        rw [if_neg (placed id)] at known
        exact known.1
      · intro id inside
        exact grown.ending ⟨inside, placed id⟩

def selfAdded : Document := grow [⟨1, { kind := .paragraph }⟩]

/-- It is its own child, and a walk from it never ends. -/
theorem endless_walk_of_selfAdded :
    selfAdded.get? 1 = some
      { kind := .paragraph, parent := some 1, firstChild := some 1, lastChild := some 1 } ∧
    selfAdded.firstChild? 1 = some 1 ∧
    ∀ visits, ¬Trail (selfAdded.onwards 1) (some ⟨1, .enter⟩) visits := by
  refine ⟨by decide, by decide, ?_⟩
  exact Trail.not_of_fixed (by decide)

end Document

end Tangle
