import Tangle.Proofs.Document.Building

/-!
The walk of a built document from any of its nodes. Although it keeps no more than the visit that
is due, it makes the tour of the subtree: each node of it is entered once and left once, nodes
beside it are not met, and the nodes that are entered and not left are the ones above.
-/

namespace Tangle

def Visit.track (opened : List NodeId) : Visit → List NodeId
  | ⟨id, .enter⟩ => id :: opened
  | ⟨id, .exit⟩ => opened.erase id

def unfinished (visits : List Visit) : List NodeId := visits.foldl Visit.track []

namespace Document

/-- The nodes of the subtree at a node. -/
inductive Within (doc : Document) (start : Nat) : Nat → Prop where
  | start : Within doc start start
  | child {id child : Nat} (within : Within doc start id) (named : doc.parent? child = some id) :
      Within doc start child

theorem foldl_track_tours {doc : Document} {ids : List Nat}
    (tours : ∀ id ∈ ids, ∀ opened, (doc.tour id).foldl Visit.track opened = opened)
    (opened : List NodeId) : (ids.flatMap doc.tour).foldl Visit.track opened = opened := by
  induction ids with
  | nil => rfl
  | cons id rest ih =>
    rw [List.flatMap_cons, List.foldl_append, tours id List.mem_cons_self]
    exact ih fun other member => tours other (List.mem_cons_of_mem id member)

theorem foldl_track_tour (doc : Document) (id : Nat) (opened : List NodeId) :
    (doc.tour id).foldl Visit.track opened = opened := by
  induction id using doc.offspring_induction generalizing opened with
  | step id ih =>
    rw [tour_eq, List.cons_append, List.foldl_cons, List.foldl_append, foldl_track_tours ih]
    exact List.erase_cons_head ..

theorem unfinished_append_tours (doc : Document) (before : List Visit) (id : Nat) (ids : List Nat) :
    unfinished (before ++ ⟨id, .enter⟩ :: ids.flatMap doc.tour) = id :: unfinished before := by
  rw [unfinished, List.foldl_append, List.foldl_cons,
    foldl_track_tours fun child _ => doc.foldl_track_tour child]
  rfl

theorem tour_of_split {doc : Document} {id child : Nat} {before after : List Nat}
    (split : doc.offspring id = before ++ child :: after) : doc.tour id =
      (⟨id, .enter⟩ :: before.flatMap doc.tour) ++ doc.tour child ++
        (after.flatMap doc.tour ++ [⟨id, .exit⟩]) := by
  rw [tour_eq, split]
  simp

theorem enter_mem_tour (doc : Document) (id : Nat) : ⟨id, .enter⟩ ∈ doc.tour id := by
  rw [tour_eq]
  simp

theorem Within.of_mem_tour {doc : Document} {start : Nat} {visit : Visit}
    (member : visit ∈ doc.tour start) : doc.Within start visit.node :=
  forall_mem_tour (fun _ _ offspring within => within.child (mem_offspring.mp offspring).2.1)
    .start visit member

theorem Within.lt {doc : Document} {start id : Nat} (inside : start < doc.size)
    (within : doc.Within start id) : id < doc.size := by
  cases within with
  | start => exact inside
  | child _ named => exact lt_size_of_link? .parent named

theorem Attached.within {doc : Document} {id : Nat} (attached : doc.Attached id) :
    doc.Within Document.root id := by
  induction attached with
  | root => exact .start
  | child _ member ih => exact ih.child (mem_offspring.mp member).2.1

namespace Built

variable {doc : Document} (built : Built doc)

include built

theorem attached {id : Nat} (inside : id < doc.size) : doc.Attached id := by
  induction id using Nat.strongRecOn with
  | ind id ih =>
    by_cases start : id = root
    · rw [start]
      exact .root
    · obtain ⟨parent, named, below⟩ := built.exists_parent inside start
      exact (ih parent below (by omega)).child (built.mem_offspring_iff.mpr named)

theorem within_le {start id : Nat} (within : doc.Within start id) : start ≤ id := by
  induction within with
  | start => exact Nat.le_refl start
  | child _ named ih =>
    have later := (mem_offspring.mp (built.mem_offspring_iff.mpr named)).2.2
    omega

/--
The tour of a subtree holds the tour of each node in it, and what is not left when that one
begins are the nodes from there up to the top of the subtree.
-/
theorem tour_around {start id : Nat} (inside : start < doc.size) (within : doc.Within start id) :
    ∃ before after, doc.tour start = before ++ doc.tour id ++ after ∧
      unfinished before ++ doc.ancestors start = doc.ancestors id := by
  induction within with
  | start => exact ⟨[], [], by simp, rfl⟩
  | @child id child within named ih =>
    obtain ⟨before, after, around, above⟩ := ih
    have member := built.mem_offspring_iff.mpr named
    obtain ⟨elder, younger, split⟩ := List.append_of_mem member
    refine ⟨before ++ ⟨id, .enter⟩ :: elder.flatMap doc.tour,
      younger.flatMap doc.tour ++ [⟨id, .exit⟩] ++ after, ?_, ?_⟩
    · rw [around, tour_of_split split]
      simp
    · have attached := built.attached (within.lt inside)
      rw [attached.ancestors_of_mem built.grown member, unfinished_append_tours, List.cons_append,
        above]

theorem mem_tour_iff {start : Nat} (inside : start < doc.size) {visit : Visit} :
    visit ∈ doc.tour start ↔ doc.Within start visit.node := by
  constructor
  · exact Within.of_mem_tour
  · intro within
    obtain ⟨before, after, around, -⟩ := built.tour_around inside within
    have own : visit ∈ doc.tour visit.node := by
      rw [tour_eq]
      rcases visit with ⟨id, - | -⟩ <;> simp
    rw [around]
    simp [own]

theorem trail_of_tour {start : Nat} (inside : start < doc.size) :
    Trail (doc.onwards start) (some ⟨start, .enter⟩) (doc.tour start) :=
  built.grown.trail_of_tour (built.placed inside)

theorem tour_nodup {start : Nat} (inside : start < doc.size) : (doc.tour start).Nodup :=
  (built.trail_of_tour inside).nodup

/-- A tour comes to the node of a visit once, so it can be parted there in one way only. -/
theorem tour_split_unique {start : Nat} (inside : start < doc.size) {visit : Visit}
    {before after before' after' : List Visit} (split : doc.tour start = before ++ visit :: after)
    (split' : doc.tour start = before' ++ visit :: after') : before = before' := by
  have distinct := built.tour_nodup inside
  rw [split, List.nodup_append, List.nodup_cons] at distinct
  have earlier : visit ∉ before := by
    intro member
    exact distinct.2.2 visit member visit List.mem_cons_self rfl
  exact ((List.append_cons_inj_of_notMem earlier distinct.2.1.1).mp (split.symm.trans split')).1

theorem unfinished_of_split {id : Nat} {before after : List Visit}
    (split : doc.tour root = before ++ ⟨id, .enter⟩ :: after) :
    unfinished before = doc.ancestors id := by
  have member : (⟨id, .enter⟩ : Visit) ∈ doc.tour root := by simp [split]
  obtain ⟨earlier, later, around, above⟩ := built.tour_around built.root_lt (.of_mem_tour member)
  rw [built.grown.ancestors_root, List.append_nil] at above
  rw [tour_eq doc id, List.append_assoc, List.cons_append, List.cons_append] at around
  rw [built.tour_split_unique built.root_lt split around, above]

theorem tour_of_prev {id sibling : Nat} (prev : doc.prev? id = some sibling) :
    ∃ before after, doc.tour root = before ++ ⟨id, .enter⟩ :: after ∧
      ⟨sibling, .enter⟩ ∈ before := by
  obtain ⟨parent, elder, younger, split⟩ := built.prev?_eq_some.mp prev
  have member : sibling ∈ doc.offspring parent := by simp [split]
  obtain ⟨-, named, -⟩ := mem_offspring.mp member
  have inside : parent < doc.size := built.link_resolves .parent sibling parent named
  obtain ⟨before, after, around, -⟩ :=
    built.tour_around built.root_lt (built.attached inside).within
  refine ⟨before ++ ⟨parent, .enter⟩ :: elder.flatMap doc.tour ++ doc.tour sibling,
    (doc.offspring id).flatMap doc.tour ++ ⟨id, .exit⟩ :: younger.flatMap doc.tour ++
      ⟨parent, .exit⟩ :: after, ?_, ?_⟩
  · rw [around, tour_of_split split, List.flatMap_cons, tour_eq doc id]
    simp
  · simp [enter_mem_tour]

end Built

/--
From every node of a built document the walk ends without a broken link after the tour of the
subtree. Entering a node on the way from the root, it has entered and not left as many others as
the node is deep.
-/
theorem walk_makes_tour {doc : Document} (built : Built doc) :
    (∀ start, start < doc.size →
      Trail (doc.onwards start) (some ⟨start, .enter⟩) (doc.tour start) ∧
      doc.walk start = (doc.tour start).map .ok ∧
      doc.tour start =
        ⟨start, .enter⟩ :: (doc.children start).flatMap doc.tour ++ [⟨start, .exit⟩] ∧
      (∀ id phase, doc.Within start id → (doc.tour start).count ⟨id, phase⟩ = 1) ∧
      ∀ visit ∈ doc.tour start, doc.Within start visit.node) ∧
    ∀ id before after, doc.tour root = before ++ ⟨id, .enter⟩ :: after →
      unfinished before = doc.ancestors id ∧ (unfinished before).length = doc.depth id := by
  constructor
  · intro start inside
    refine ⟨built.trail_of_tour inside, built.grown.walk_eq_tour (built.placed inside), ?_, ?_, ?_⟩
    · rw [built.children_eq]
      exact doc.tour_eq start
    · intro id phase within
      rw [(built.tour_nodup inside).count, if_pos ((built.mem_tour_iff inside).mpr within)]
    · intro visit member
      exact .of_mem_tour member
  · intro id before after split
    rw [built.unfinished_of_split split]
    exact ⟨rfl, rfl⟩

def nestedList : Document :=
  ((((empty.append root { kind := .list }).append 1 { kind := .listItem }).append 2
    { kind := .list }).append 3 { kind := .listItem }).append 1 { kind := .listItem }

theorem walk_makes_tour_nestedList : Built nestedList ∧
    nestedList.tour 2 =
      [⟨2, .enter⟩, ⟨3, .enter⟩, ⟨4, .enter⟩, ⟨4, .exit⟩, ⟨3, .exit⟩, ⟨2, .exit⟩] ∧
    nestedList.tour root = [⟨0, .enter⟩, ⟨1, .enter⟩, ⟨2, .enter⟩, ⟨3, .enter⟩, ⟨4, .enter⟩,
      ⟨4, .exit⟩, ⟨3, .exit⟩, ⟨2, .exit⟩, ⟨5, .enter⟩, ⟨5, .exit⟩, ⟨1, .exit⟩, ⟨0, .exit⟩] ∧
    unfinished [⟨0, .enter⟩, ⟨1, .enter⟩, ⟨2, .enter⟩, ⟨3, .enter⟩, ⟨4, .enter⟩, ⟨4, .exit⟩,
      ⟨3, .exit⟩, ⟨2, .exit⟩] = nestedList.ancestors 5 := by
  have built : Built nestedList :=
    .append (.append (.append (.append (.append .empty (by decide) _) (by decide) _) (by decide) _)
      (by decide) _) (by decide) _
  obtain ⟨walks, levels⟩ := walk_makes_tour built
  have inner := (walks 2 (by decide)).2.1
  have whole := (walks root (by decide)).2.1
  have injective : Function.Injective (Except.ok : Visit → Except BrokenLink Visit) :=
    fun _ _ same => Except.ok.inj same
  have toured := List.map_injective_iff.mpr injective (whole.symm.trans (by decide :
    nestedList.walk root = [⟨0, .enter⟩, ⟨1, .enter⟩, ⟨2, .enter⟩, ⟨3, .enter⟩, ⟨4, .enter⟩,
      ⟨4, .exit⟩, ⟨3, .exit⟩, ⟨2, .exit⟩, ⟨5, .enter⟩, ⟨5, .exit⟩, ⟨1, .exit⟩,
      ⟨0, .exit⟩].map .ok))
  refine ⟨built, List.map_injective_iff.mpr injective (inner.symm.trans (by decide)), toured, ?_⟩
  exact (levels 5 _ [⟨5, .exit⟩, ⟨1, .exit⟩, ⟨0, .exit⟩] toured).1

end Document

end Tangle
