import Tangle.Proofs.Document.Numbering

/-!
The order of visits. A tour leaves every node that it enters, and leaves it after all that it
entered later, and this is still so if only some nodes are looked at. So of two nodes the second is
left before the first if it stands below it, and is entered after the first is left if it does not.
-/

namespace Tangle

/-- Visits that leave each node they enter, and leave it after all that was entered later. -/
inductive Balanced : List Visit → Prop where
  | nil : Balanced []
  | around (id : NodeId) {inner rest : List Visit} (below : Balanced inner)
      (beside : Balanced rest) : Balanced (⟨id, .enter⟩ :: (inner ++ ⟨id, .exit⟩ :: rest))

@[simp] theorem entered_enter (id : NodeId) (visits : List Visit) :
    entered (⟨id, .enter⟩ :: visits) = id :: entered visits := rfl

@[simp] theorem entered_exit (id : NodeId) (visits : List Visit) :
    entered (⟨id, .exit⟩ :: visits) = entered visits := rfl

theorem mem_entered {id : NodeId} {visits : List Visit} :
    id ∈ entered visits ↔ ⟨id, .enter⟩ ∈ visits := by
  induction visits with
  | nil => simp [entered]
  | cons visit rest ih => rcases visit with ⟨other, - | -⟩ <;> simp [ih]

theorem entered_filter (keep : NodeId → Bool) (visits : List Visit) :
    entered (visits.filter (keep ·.node)) = (entered visits).filter keep := by
  induction visits with
  | nil => rfl
  | cons visit rest ih =>
    rcases visit with ⟨id, - | -⟩ <;> cases kept : keep id <;> simp [kept, ih]

namespace Balanced

variable {visits : List Visit}

theorem append {others : List Visit} (first : Balanced visits) (second : Balanced others) :
    Balanced (visits ++ others) := by
  induction first with
  | nil => exact second
  | around id below _ _ ih =>
    rw [List.cons_append, List.append_assoc, List.cons_append]
    exact .around id below ih

theorem filter (balanced : Balanced visits) (keep : NodeId → Bool) :
    Balanced (visits.filter (keep ·.node)) := by
  induction balanced with
  | nil => exact .nil
  | around id _ _ inner outer =>
    rw [List.filter_cons, List.filter_append, List.filter_cons]
    split_ifs
    · exact .around id inner outer
    · exact inner.append outer

theorem eq_nil (balanced : Balanced visits) (none : entered visits = []) : visits = [] := by
  cases balanced with
  | nil => rfl
  | around => simp at none

theorem eq_pair (balanced : Balanced visits) {id : NodeId} (one : entered visits = [id]) :
    visits = [⟨id, .enter⟩, ⟨id, .exit⟩] := by
  cases balanced with
  | nil => cases one
  | around other below beside =>
    simp only [entered_enter, entered_append, entered_exit, List.cons.injEq,
      List.append_eq_nil_iff] at one
    obtain ⟨rfl, inner, outer⟩ := one
    rw [below.eq_nil inner, beside.eq_nil outer]
    rfl

/-- Of two nodes the second is entered after the first is left, or is entered and left before. -/
theorem eq_pairs (balanced : Balanced visits) {first second : NodeId}
    (two : entered visits = [first, second]) :
    visits = [⟨first, .enter⟩, ⟨first, .exit⟩, ⟨second, .enter⟩, ⟨second, .exit⟩] ∨
      visits = [⟨first, .enter⟩, ⟨second, .enter⟩, ⟨second, .exit⟩, ⟨first, .exit⟩] := by
  cases balanced with
  | nil => cases two
  | around other below beside =>
    simp only [entered_enter, entered_append, entered_exit, List.cons.injEq] at two
    obtain ⟨rfl, later⟩ := two
    rcases List.append_eq_singleton_iff.mp later with ⟨inner, outer⟩ | ⟨inner, outer⟩
    · rw [below.eq_nil inner, beside.eq_pair outer]
      exact .inl rfl
    · rw [below.eq_pair inner, beside.eq_nil outer]
      exact .inr rfl

end Balanced

theorem not_sublist_swap {α : Type} {list : List α} (distinct : list.Nodup) {first second : α}
    (order : [first, second].Sublist list) : ¬[second, first].Sublist list := by
  induction list with
  | nil => simp
  | cons head rest ih =>
    rw [List.nodup_cons] at distinct
    rw [List.cons_sublist_cons'] at order ⊢
    rcases order with order | ⟨rfl, order⟩
    · rintro (swapped | ⟨rfl, swapped⟩)
      · exact ih distinct.2 order swapped
      · exact distinct.1 (order.subset (by simp))
    · rintro (swapped | ⟨rfl, swapped⟩)
      · exact distinct.1 (swapped.subset (by simp))
      · exact distinct.1 (order.subset (by simp))

namespace Document

theorem balanced_tours {doc : Document} {ids : List Nat}
    (tours : ∀ id ∈ ids, Balanced (doc.tour id)) : Balanced (ids.flatMap doc.tour) := by
  induction ids with
  | nil => exact .nil
  | cons id rest ih =>
    rw [List.forall_mem_cons] at tours
    rw [List.flatMap_cons]
    exact tours.1.append (ih tours.2)

theorem balanced_tour (doc : Document) (id : Nat) : Balanced (doc.tour id) := by
  induction id using doc.offspring_induction with
  | step id ih =>
    rw [tour_eq]
    exact .around id (balanced_tours ih) .nil

section Order

variable {doc : Document} (built : Built doc)

include built

theorem Attached.mem_ancestors_iff {above id : Nat} (attached : doc.Attached id) :
    above ∈ doc.ancestors id ↔ doc.Within above id ∧ above ≠ id := by
  induction attached with
  | root =>
    rw [built.grown.ancestors_root]
    refine iff_of_false (by simp) ?_
    rintro ⟨within, other⟩
    cases within with
    | start => exact other rfl
    | child _ named =>
      rw [built.grown.root_spec.2] at named
      cases named
  | @child id child attached member ih =>
    obtain ⟨-, named, later⟩ := mem_offspring.mp member
    rw [attached.ancestors_of_mem built.grown member, List.mem_cons, ih]
    constructor
    · intro upper
      have within : doc.Within above id := by
        rcases upper with rfl | ⟨within, -⟩
        · exact .start
        · exact within
      have bound := built.within_le within
      exact ⟨within.child named, by omega⟩
    · rintro ⟨within, other⟩
      cases within with
      | start => exact absurd rfl other
      | child within parent =>
        rw [named, Option.some.injEq] at parent
        subst parent
        by_cases same : above = id
        · exact .inl same
        · exact .inr ⟨within, same⟩

theorem enter_before_exit {above id : Nat} (inside : above < doc.size)
    (within : doc.Within above id) (other : above ≠ id) :
    [⟨id, .enter⟩, ⟨above, .exit⟩].Sublist (doc.tour root) := by
  obtain ⟨before, after, around, -⟩ :=
    built.tour_around built.root_lt (built.attached inside).within
  have member : (⟨id, .enter⟩ : Visit) ∈ doc.tour above := (built.mem_tour_iff inside).mpr within
  rw [tour_eq] at member
  have inner : (⟨id, .enter⟩ : Visit) ∈ (doc.offspring above).flatMap doc.tour := by
    simpa [Ne.symm other] using member
  have nested : [⟨id, .enter⟩, ⟨above, .exit⟩].Sublist (doc.tour above) := by
    rw [tour_eq]
    exact ((List.singleton_sublist.mpr inner).append (.refl _)).cons _
  rw [around]
  exact nested.trans ((List.sublist_append_right ..).trans (List.sublist_append_left ..))

theorem exit_before_enter {first second : Nat} (inside : first < doc.size)
    (outside : ¬doc.Within first second)
    (order : [⟨first, .enter⟩, ⟨second, .enter⟩].Sublist (doc.tour root)) :
    [⟨first, .exit⟩, ⟨second, .enter⟩].Sublist (doc.tour root) := by
  obtain ⟨before, after, around, -⟩ :=
    built.tour_around built.root_lt (built.attached inside).within
  have member : (⟨second, .enter⟩ : Visit) ∈ doc.tour root := order.subset (by simp)
  have beside : (⟨second, .enter⟩ : Visit) ∉ doc.tour first :=
    fun present => outside (.of_mem_tour present)
  have enters : ∀ phase, [(⟨first, phase⟩ : Visit)].Sublist (doc.tour first) := by
    intro phase
    rw [List.singleton_sublist]
    exact (built.mem_tour_iff inside).mpr .start
  have distinct := built.tour_nodup built.root_lt
  rw [around] at member order distinct ⊢
  rw [List.mem_append, List.mem_append] at member
  rcases member with (earlier | among) | later
  · have swapped : [⟨second, .enter⟩, ⟨first, .enter⟩].Sublist (before ++ doc.tour first) :=
      (List.singleton_sublist.mpr earlier).append (enters .enter)
    exact absurd (swapped.trans (List.sublist_append_left ..)) (not_sublist_swap distinct order)
  · exact absurd among beside
  · have leaves := (enters .exit).trans (List.sublist_append_right before _)
    exact leaves.append (List.singleton_sublist.mpr later)

theorem Built.eq_pairs {visits : List Visit} (balanced : Balanced visits)
    (part : visits.Sublist (doc.tour root)) {first second : NodeId}
    (two : entered visits = [first, second]) : visits =
      if first ∈ doc.ancestors second
      then [⟨first, .enter⟩, ⟨second, .enter⟩, ⟨second, .exit⟩, ⟨first, .exit⟩]
      else [⟨first, .enter⟩, ⟨first, .exit⟩, ⟨second, .enter⟩, ⟨second, .exit⟩] := by
  have distinct := built.tour_nodup built.root_lt
  have inside : ∀ id ∈ entered visits, id < doc.size := by
    intro id member
    exact mem_tour_lt built.root_lt _ (part.subset (mem_entered.mp member))
  rw [two] at inside
  have bound : first < doc.size := inside first (by simp)
  have upper : first ∈ doc.ancestors second ↔ doc.Within first second ∧ first ≠ second :=
    (built.attached (inside second (by simp))).mem_ancestors_iff built
  rcases balanced.eq_pairs two with rfl | rfl
  · rw [if_neg]
    intro above
    obtain ⟨within, other⟩ := upper.mp above
    have order : [⟨first, .exit⟩, ⟨second, .enter⟩].Sublist (doc.tour root) := by
      refine List.Sublist.trans ?_ part
      simp
    exact not_sublist_swap distinct order (enter_before_exit built bound within other)
  · have order : [⟨first, .enter⟩, ⟨second, .enter⟩].Sublist (doc.tour root) := by
      refine List.Sublist.trans ?_ part
      simp
    have nested : [⟨second, .enter⟩, ⟨first, .exit⟩].Sublist (doc.tour root) := by
      refine List.Sublist.trans ?_ part
      simp
    rw [if_pos (upper.mpr ⟨?_, ?_⟩)]
    · by_contra outside
      exact not_sublist_swap distinct nested (exit_before_enter built bound outside order)
    · rintro rfl
      exact not_sublist_swap distinct order order

end Order

end Document

end Tangle
