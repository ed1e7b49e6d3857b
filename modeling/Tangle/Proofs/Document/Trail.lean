import Mathlib.Data.List.Nodup
import Mathlib.Data.List.Perm.Subperm
import Tangle.Document.Walk

/-!
The trail of a partial step: the states it goes through until it gives none. A trail that ends
stands nowhere twice, so the counts that bound chains and walks cut no trail that ends: a chain
is its trail, and a walk is its trail with each visit looked up.
-/

namespace Tangle

inductive Trail {σ : Type} (step : σ → Option σ) : Option σ → List σ → Prop where
  | done : Trail step none []
  | move {state : σ} {rest : List σ} (further : Trail step (step state) rest) :
      Trail step (some state) (state :: rest)

namespace Trail

variable {σ : Type} {step : σ → Option σ} {due : Option σ} {states : List σ}

theorem unique {others : List σ} (first : Trail step due states)
    (second : Trail step due others) : states = others := by
  induction first generalizing others with
  | done =>
    cases second
    rfl
  | move further ih =>
    cases second with
    | move other => rw [ih other]

theorem onward {before rest : List σ} {state : σ}
    (trail : Trail step due (before ++ state :: rest)) :
    Trail step (some state) (state :: rest) := by
  induction before generalizing due with
  | nil =>
    cases trail with
    | move further => exact .move further
  | cons earlier before ih =>
    cases trail with
    | move further => exact ih further

/-- Where a trail stands decides how it goes on, so a repeated state would repeat for ever. -/
theorem nodup (trail : Trail step due states) : states.Nodup := by
  induction trail with
  | done => exact List.nodup_nil
  | @move state rest further ih =>
    refine List.nodup_cons.mpr ⟨fun repeated => ?_, ih⟩
    obtain ⟨before, after, split⟩ := List.append_of_mem repeated
    have again : Trail step (some state) (state :: after) := onward (split ▸ further)
    have same : state :: rest = state :: after := unique (.move further) again
    have lengths := congrArg List.length same
    rw [split] at lengths
    simp only [List.length_cons, List.length_append] at lengths
    omega

/-- A step that keeps an invariant and lowers a rank leaves a trail, all along which it holds. -/
theorem exists_of_rank {holds : σ → Prop} (rank : σ → Nat)
    (kept : ∀ state, holds state → ∀ next ∈ step state, holds next ∧ rank next < rank state)
    {state : σ} (start : holds state) :
    ∃ states, Trail step (some state) states ∧ ∀ other ∈ states, holds other := by
  induction height : rank state using Nat.strongRecOn generalizing state with
  | ind height ih =>
    cases moves : step state with
    | none =>
      refine ⟨[state], .move (by rw [moves]; exact .done), ?_⟩
      simpa using start
    | some next =>
      obtain ⟨further, lower⟩ := kept state start next moves
      obtain ⟨states, trail, all⟩ := ih (rank next) (by omega) further rfl
      exact ⟨state :: states, .move (by rw [moves]; exact trail),
        List.forall_mem_cons.mpr ⟨start, all⟩⟩

theorem isSome_of_mem_dropLast (trail : Trail step due states) :
    ∀ state ∈ states.dropLast, (step state).isSome := by
  induction trail with
  | done => simp
  | @move state rest further ih =>
    intro other member
    cases further' : step state with
    | none =>
      rw [further'] at further
      cases further
      simp at member
    | some next =>
      have nonempty : rest ≠ [] := by
        rintro rfl
        rw [further'] at further
        cases further
      rw [List.dropLast_cons_of_ne_nil nonempty] at member
      rcases List.mem_cons.mp member with rfl | later
      · rw [further']
        rfl
      · exact ih other later

theorem length_le (trail : Trail step due states) (code : σ → Nat)
    (injective : Function.Injective code) (bound : Nat)
    (bounded : ∀ state, (step state).isSome → code state < bound) :
    states.length ≤ bound + 1 := by
  have distinct : (states.dropLast.map code).Nodup :=
    (trail.nodup.sublist (List.dropLast_sublist states)).map injective
  have inside : states.dropLast.map code ⊆ List.range bound := by
    intro value member
    obtain ⟨state, present, rfl⟩ := List.mem_map.mp member
    exact List.mem_range.mpr (bounded state (trail.isSome_of_mem_dropLast state present))
  have short := (distinct.subperm inside).length_le
  simp only [List.length_map, List.length_dropLast, List.length_range] at short
  omega

end Trail

namespace Visit

def number (node : Nat) : Phase → Nat
  | .enter => 2 * node
  | .exit => 2 * node + 1

def code (visit : Visit) : Nat := number visit.node visit.phase

theorem number_injective (node other : Nat) (phase otherPhase : Phase)
    (same : number node phase = number other otherPhase) : node = other ∧ phase = otherPhase := by
  cases phase <;> cases otherPhase <;> simp only [number] at same <;> simp <;> omega

theorem number_lt (node bound : Nat) (phase : Phase) (inside : node < bound) :
    number node phase < 2 * bound := by
  cases phase <;> simp only [number] <;> omega

theorem code_injective : Function.Injective code := by
  rintro ⟨node, phase⟩ ⟨other, otherPhase⟩ same
  obtain ⟨nodes, phases⟩ := number_injective node other phase otherPhase same
  rw [Visit.mk.injEq]
  exact ⟨nodes, phases⟩

end Visit

namespace Document

def along (doc : Document) (link : Node → Option NodeId) (id : NodeId) : Option NodeId :=
  (doc.get? id).bind link

theorem lt_size_of_get? {doc : Document} {id : Nat} {node : Node}
    (found : doc.get? id = some node) : id < doc.size := by
  unfold get? at found
  exact (Array.getElem?_eq_some_iff.mp found).1

theorem chain_of_trail (doc : Document) (link : Node → Option NodeId) {due : Option NodeId}
    {ids : List NodeId} (trail : Trail (doc.along link) due ids) (steps : Nat)
    (enough : ids.length ≤ steps) : doc.chain link steps due = ids := by
  induction trail generalizing steps with
  | done => cases steps <;> rfl
  | @move id rest further ih =>
    cases steps with
    | zero => simp at enough
    | succ steps =>
      simp only [List.length_cons, Nat.add_le_add_iff_right] at enough
      rw [chain]
      exact congrArg (id :: ·) (ih steps enough)

theorem follow_of_trail (doc : Document) (link : Node → Option NodeId) {due : Option NodeId}
    {ids : List NodeId} (trail : Trail (doc.along link) due ids) :
    doc.follow link due = ids := by
  have bounded : ∀ id, (doc.along link id).isSome → id < doc.size := by
    intro id some
    unfold along at some
    cases found : doc.get? id with
    | none => simp [found] at some
    | some node => exact lt_size_of_get? found
  exact doc.chain_of_trail link trail _
    (trail.length_le id Function.injective_id doc.size bounded)

def onwards (doc : Document) (start : NodeId) (visit : Visit) : Option Visit :=
  (doc.get? visit.node).bind (after start · visit)

def resolve (doc : Document) (visit : Visit) : Except BrokenLink Visit :=
  match doc.get? visit.node with
  | some _ => .ok visit
  | none => .error ⟨visit.node⟩

theorem visits_of_trail (doc : Document) (start : NodeId) {due : Option Visit}
    {visits : List Visit} (trail : Trail (doc.onwards start) due visits) (steps : Nat)
    (enough : visits.length ≤ steps) :
    doc.visits start steps due = visits.map doc.resolve := by
  induction trail generalizing steps with
  | done => cases steps <;> rfl
  | @move visit rest further ih =>
    cases steps with
    | zero => simp at enough
    | succ steps =>
      simp only [List.length_cons, Nat.add_le_add_iff_right] at enough
      have later := ih steps enough
      unfold onwards at further later
      rw [Document.visits, List.map_cons, resolve]
      cases found : doc.get? visit.node with
      | none =>
        rw [found] at further
        cases further
        rfl
      | some node =>
        rw [found] at later
        exact congrArg (Except.ok visit :: ·) later

theorem walk_of_trail (doc : Document) (start : NodeId) {visits : List Visit}
    (trail : Trail (doc.onwards start) (some ⟨start, .enter⟩) visits) :
    doc.walk start = visits.map doc.resolve := by
  have bounded : ∀ visit, (doc.onwards start visit).isSome → visit.code < 2 * doc.size := by
    intro visit some
    unfold onwards at some
    cases found : doc.get? visit.node with
    | none => simp [found] at some
    | some node => exact Visit.number_lt _ _ _ (lt_size_of_get? found)
  exact doc.visits_of_trail start trail _
    (trail.length_le Visit.code Visit.code_injective (2 * doc.size) bounded)

end Document

end Tangle
