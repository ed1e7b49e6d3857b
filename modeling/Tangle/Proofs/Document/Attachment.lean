import Mathlib.Data.List.Induction
import Tangle.Proofs.Document.Reading
import Tangle.Proofs.Document.Touring

/-!
Documents to which nodes are added one by one below any positions. A node is joined to the root if
the position below which it was added was taken by then, by a node that is joined itself; a position
that was not taken may be the new node's own or be filled later, which leaves links that go round in
circles. No link leads from a joined node to one that is not. Seen from a joined node each link has
one sense, up or down in the order of positions, so searches from there end.
-/

namespace Tangle

def Link.isForward : Link → Bool
  | .parent | .prev => false
  | .firstChild | .lastChild | .next => true

namespace Document

structure Addition where
  parent : NodeId
  label : Label
  deriving DecidableEq, Repr

def grow (additions : List Addition) : Document :=
  additions.foldl (fun doc addition => doc.append addition.parent addition.label) empty

theorem grow_concat (additions : List Addition) (addition : Addition) :
    grow (additions ++ [addition]) =
      (grow additions).append addition.parent addition.label :=
  List.foldl_concat ..

theorem grown_grow (additions : List Addition) : Grown (grow additions) := by
  induction additions using List.reverseRecOn with
  | nil => exact .empty
  | append_singleton additions addition ih =>
    rw [grow_concat]
    exact ih.append _ _

@[simp] theorem size_grow (additions : List Addition) :
    (grow additions).size = additions.length + 1 := by
  induction additions using List.reverseRecOn with
  | nil => rfl
  | append_singleton additions addition ih =>
    rw [grow_concat, size_append, ih, List.length_append, List.length_singleton]

theorem parent?_grow (additions : List Addition) (index : Nat) :
    (grow additions).parent? (index + 1) = additions[index]?.map (·.parent) := by
  induction additions using List.reverseRecOn with
  | nil => rfl
  | append_singleton additions addition ih =>
    rw [grow_concat, (grown_grow additions).parent?_append, size_grow]
    by_cases last : index = additions.length
    · rw [if_pos (by omega), last, List.getElem?_concat_length, Option.map_some]
    · rw [if_neg (by omega), ih]
      rcases Nat.lt_or_ge index additions.length with earlier | later
      · rw [List.getElem?_append_left earlier]
      · have beyond : (additions ++ [addition]).length ≤ index := by
          rw [List.length_append, List.length_singleton]
          omega
        rw [List.getElem?_eq_none later, List.getElem?_eq_none beyond]

/--
The nodes that are joined to the root. When the addition at an index is made, the positions up to
that index are taken.
-/
inductive Joined (additions : List Addition) : Nat → Prop where
  | root : Joined additions root
  | child {index : Nat} {addition : Addition} (added : additions[index]? = some addition)
      (taken : addition.parent ≤ index) (joined : Joined additions addition.parent) :
      Joined additions (index + 1)

theorem attached_grow_iff {additions : List Addition} {id : Nat} :
    (grow additions).Attached id ↔ Joined additions id := by
  constructor
  · intro attached
    induction attached with
    | root => exact .root
    | @child id child attached member ih =>
      obtain ⟨-, named, later⟩ := mem_offspring.mp member
      obtain ⟨index, rfl⟩ : ∃ index, child = index + 1 := ⟨child - 1, by omega⟩
      rw [parent?_grow] at named
      obtain ⟨addition, added, rfl⟩ := Option.map_eq_some_iff.mp named
      exact .child added (Nat.le_of_lt_succ later) ih
  · intro joined
    induction joined with
    | root => exact .root
    | @child index addition added taken joined ih =>
      have bound : index < additions.length := (List.getElem?_eq_some_iff.mp added).1
      refine ih.child (mem_offspring.mpr ⟨?_, ?_, Nat.lt_succ_of_le taken⟩)
      · rw [size_grow]
        omega
      · rw [parent?_grow, added, Option.map_some]

theorem Attached.append {doc : Document} (grown : Grown doc) {id : Nat} (attached : doc.Attached id)
    (parent : NodeId) (label : Label) : (doc.append parent label).Attached id := by
  induction attached with
  | root => exact .root
  | @child id child attached member ih =>
    apply ih.child
    rw [grown.offspring_append]
    exact List.mem_append_left _ member

section Visits

variable {doc : Document}

theorem Attached.of_mem_tour {id : Nat} (attached : doc.Attached id) {visit : Visit}
    (member : visit ∈ doc.tour id) : doc.Attached visit.node :=
  forall_mem_tour (fun _ _ offspring above => above.child offspring) attached visit member

theorem Attached.tour_subset {id : Nat} (attached : doc.Attached id) :
    doc.tour id ⊆ doc.tour Document.root := by
  induction attached with
  | root => exact List.Subset.refl _
  | @child id child attached member ih =>
    refine List.Subset.trans (fun visit present => ?_) ih
    obtain ⟨before, after, split⟩ := List.append_of_mem member
    rw [tour_of_split split]
    simp [present]

theorem mem_tour_root_iff {visit : Visit} : visit ∈ doc.tour root ↔ doc.Attached visit.node := by
  constructor
  · exact Attached.root.of_mem_tour
  · intro attached
    apply attached.tour_subset
    rw [tour_eq]
    rcases visit with ⟨id, - | -⟩ <;> simp

end Visits

def Onward (link : Link) (id target : Nat) : Prop :=
  if link.isForward then id < target else target < id

theorem Attached.exists_between {doc : Document} {id : Nat} (attached : doc.Attached id)
    (other : id ≠ Document.root) : ∃ parent before after, doc.Attached parent ∧
      doc.offspring parent = before ++ id :: after ∧
      (∀ sibling ∈ before, sibling < id) ∧ ∀ sibling ∈ after, id < sibling := by
  cases attached with
  | root => exact absurd rfl other
  | @child parent _ attached member =>
    obtain ⟨before, after, split⟩ := List.append_of_mem member
    have sorted := doc.offspring_sorted parent
    rw [split, List.pairwise_append, List.pairwise_cons] at sorted
    refine ⟨parent, before, after, attached, split, ?_, sorted.2.1.1⟩
    intro sibling earlier
    exact sorted.2.2 sibling earlier id List.mem_cons_self

section Confined

variable {doc : Document} (grown : Grown doc)

include grown

/-- No link leads away from the attached nodes. -/
theorem Attached.of_link {id target : Nat} (attached : doc.Attached id) (link : Link)
    (leads : doc.link? link id = some target) : doc.Attached target ∧ Onward link id target := by
  have linked : Linked doc id := grown.linked id (attached.placed grown).2
  have below : ∀ child ∈ doc.offspring id, doc.Attached child ∧ id < child :=
    fun child member => ⟨attached.child member, (mem_offspring.mp member).2.2⟩
  cases link with
  | parent =>
    have named : doc.parent? id = some target := leads
    cases attached with
    | root =>
      rw [grown.root_spec.2] at named
      cases named
    | child attached member =>
      obtain ⟨-, same, later⟩ := mem_offspring.mp member
      obtain rfl := Option.some.inj (same.symm.trans named)
      exact ⟨attached, later⟩
  | firstChild =>
    have first : doc.firstChild? id = some target := leads
    rw [linked.first] at first
    exact below target (List.mem_of_head? first)
  | lastChild =>
    have last : doc.lastChild? id = some target := leads
    rw [linked.last] at last
    exact below target (List.mem_of_getLast? last)
  | next =>
    have next : doc.next? id = some target := leads
    have other : id ≠ Document.root := by
      rintro rfl
      rw [grown.root_alone.2] at next
      cases next
    obtain ⟨parent, before, after, above, split, -, later⟩ := attached.exists_between other
    have siblings := grown.linked parent (above.placed grown).2
    rw [(siblings.beside before after id split).2] at next
    have member := List.mem_of_head? next
    exact ⟨above.child (by simp [split, member]), later target member⟩
  | prev =>
    have prev : doc.prev? id = some target := leads
    have other : id ≠ Document.root := by
      rintro rfl
      rw [grown.root_alone.1] at prev
      cases prev
    obtain ⟨parent, before, after, above, split, earlier, -⟩ := attached.exists_between other
    have siblings := grown.linked parent (above.placed grown).2
    rw [(siblings.beside before after id split).1] at prev
    have member := List.mem_of_getLast? prev
    exact ⟨above.child (by simp [split, member]), earlier target member⟩

end Confined

def Closes (doc : Document) (way : Node → Option NodeId) (id : Nat) : Prop :=
  Trail (doc.along way) (some id) (doc.follow way (some id)) ∧
    ∀ other ∈ doc.follow way (some id), doc.Attached other

/-- Whatever is looked up from a node, along links of one sort, down, or by a walk. -/
structure Confined (doc : Document) (id : Nat) : Prop where
  links : ∀ link : Link, doc.Closes (·.link link) id
  down : doc.Closes down id
  tour : Trail (doc.onwards id) (some ⟨id, .enter⟩) (doc.tour id)
  visits : ∀ visit ∈ doc.tour id, doc.Attached visit.node

section Searches

variable {doc : Document} (grown : Grown doc) {id : Nat} (attached : doc.Attached id)

include grown attached

theorem Attached.closes {way : Node → Option NodeId} (link : Link)
    (steps : ∀ node, doc.Attached node → ∀ target : Nat, doc.along way node = some target →
      doc.Attached target ∧ Onward link node target) : doc.Closes way id := by
  have trail : ∃ ids, Trail (doc.along way) (some id) ids ∧ ∀ other ∈ ids, doc.Attached other := by
    refine Trail.exists_of_rank
      (fun node => if link.isForward then doc.size - node else node) ?_ attached
    intro node reached target moves
    obtain ⟨further, sense⟩ := steps node reached target moves
    have inside := (further.placed grown).1
    refine ⟨further, ?_⟩
    unfold Onward at sense
    split_ifs at sense ⊢
    · omega
    · exact sense
  obtain ⟨ids, followed, all⟩ := trail
  rw [Closes, doc.follow_of_trail way followed]
  exact ⟨followed, all⟩

theorem Attached.confined : doc.Confined id where
  links := by
    intro link
    apply attached.closes grown link
    intro node reached target leads
    exact reached.of_link grown link leads
  down := by
    apply attached.closes grown .next
    intro node reached target leads
    rw [along_down (reached.placed grown).1, Option.or_eq_some_iff] at leads
    rcases leads with first | ⟨-, next⟩
    · exact reached.of_link grown .firstChild first
    · exact reached.of_link grown .next next
  tour := grown.trail_of_tour (attached.placed grown)
  visits := fun _ member => attached.of_mem_tour member

end Searches

end Document

end Tangle
