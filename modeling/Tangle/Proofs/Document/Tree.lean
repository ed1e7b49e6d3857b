import Tangle.Document.Search
import Tangle.Proofs.Document.Growth
import Tangle.Proofs.Document.Trail

/-!
The ordered tree that a grown document holds, and the trails that its links leave in it: along
siblings to either side, up to the root, and through a whole subtree. A node is *placed* if it is
there and is not its own parent; all children of a node are placed.
-/

namespace Tangle.Document

def Placed (doc : Document) (id : Nat) : Prop := id < doc.size ∧ doc.parent? id ≠ some id

theorem placed_of_mem {doc : Document} {id child : Nat} (member : child ∈ doc.offspring id) :
    doc.Placed child := by
  obtain ⟨inside, named, later⟩ := mem_offspring.mp member
  refine ⟨inside, ?_⟩
  rw [named, ne_eq, Option.some.injEq]
  omega

theorem Grown.root_spec {doc : Document} (grown : Grown doc) :
    0 < doc.size ∧ doc.parent? root = none := by
  induction grown with
  | empty => decide
  | @append doc grown parent label ih =>
    have other : root ≠ doc.size := Nat.ne_of_lt ih.1
    rw [size_append, grown.parent?_append, if_neg other]
    exact ⟨by omega, ih.2⟩

theorem Grown.placed_root {doc : Document} (grown : Grown doc) : doc.Placed root := by
  obtain ⟨inside, orphan⟩ := grown.root_spec
  exact ⟨inside, by simp [orphan]⟩

/-- Induction over the tree: what holds of a node if it holds of its children holds of all. -/
theorem offspring_induction (doc : Document) {motive : Nat → Prop}
    (step : ∀ id, (∀ child ∈ doc.offspring id, motive child) → motive id) (id : Nat) :
    motive id := by
  induction remaining : doc.size - id using Nat.strongRecOn generalizing id with
  | ind remaining ih =>
    apply step
    intro child member
    have facts := mem_offspring.mp member
    exact ih (doc.size - child) (by omega) child rfl

def labelAt (doc : Document) (id : Nat) : Label :=
  ((doc.get? id).map Node.toLabel).getD { kind := .document }

theorem Grown.labelAt_append {doc : Document} (grown : Grown doc) (parent : NodeId) (label : Label)
    (id : Nat) : (doc.append parent label).labelAt id =
      if id = doc.size then label else doc.labelAt id := by
  unfold labelAt
  rw [grown.get?_append]
  split_ifs with new
  · simp
  · cases doc.get? id <;> simp

theorem Grown.labelAt_root {doc : Document} (grown : Grown doc) :
    doc.labelAt root = { kind := .document } := by
  induction grown with
  | empty => rfl
  | @append doc grown parent label ih =>
    have other : root ≠ doc.size := Nat.ne_of_lt grown.root_spec.1
    rw [grown.labelAt_append, if_neg other, ih]

/-- The ordered tree below a node. -/
def outlineAt (doc : Document) (id : Nat) : Outline :=
  .node (doc.labelAt id) ((doc.offspring id).attach.map fun child => doc.outlineAt child.1)
termination_by doc.size - id
decreasing_by
  have facts := mem_offspring.mp child.2
  omega

def outline (doc : Document) : Outline := doc.outlineAt root

theorem outlineAt_eq (doc : Document) (id : Nat) :
    doc.outlineAt id = .node (doc.labelAt id) ((doc.offspring id).map doc.outlineAt) := by
  rw [outlineAt, List.attach_map_val]

/-- The visits to a subtree: into a node, through its children in order, and out again. -/
def tour (doc : Document) (id : Nat) : List Visit :=
  ⟨id, .enter⟩ :: ((doc.offspring id).attach.flatMap fun child => doc.tour child.1) ++ [⟨id, .exit⟩]
termination_by doc.size - id
decreasing_by
  have facts := mem_offspring.mp child.2
  omega

theorem tour_eq (doc : Document) (id : Nat) : doc.tour id =
    ⟨id, .enter⟩ :: (doc.offspring id).flatMap doc.tour ++ [⟨id, .exit⟩] := by
  rw [tour, List.flatMap_def, List.attach_map_val, ← List.flatMap_def]

section Links

variable {doc : Document} {id : Nat} (linked : Linked doc id)

include linked

theorem Linked.trail_forward {before after : List Nat} (split : doc.offspring id = before ++ after) :
    Trail (doc.along (·.next)) after.head? after := by
  induction after generalizing before with
  | nil => exact .done
  | cons child after ih =>
    apply Trail.move
    have next : doc.along (·.next) child = after.head? := (linked.beside _ _ _ split).2
    rw [next]
    exact ih (by simpa using split : doc.offspring id = (before ++ [child]) ++ after)

theorem Linked.trail_backward {before after : List Nat}
    (split : doc.offspring id = before ++ after) :
    Trail (doc.along (·.prev)) before.getLast? before.reverse := by
  induction reversed : before.reverse generalizing before after with
  | nil =>
    obtain rfl := List.reverse_eq_nil_iff.mp reversed
    exact .done
  | cons child rest ih =>
    obtain rfl : before = rest.reverse ++ [child] := by
      rw [← List.reverse_reverse before, reversed, List.reverse_cons]
    rw [List.getLast?_concat]
    apply Trail.move
    have split' : doc.offspring id = rest.reverse ++ child :: after := by simpa using split
    have prev : doc.along (·.prev) child = rest.reverse.getLast? := (linked.beside _ _ _ split').1
    rw [prev]
    exact ih split' (List.reverse_reverse rest)

theorem Linked.siblings_forward {before after : List Nat} {child : Nat}
    (split : doc.offspring id = before ++ child :: after) :
    doc.siblings child .forward = after := by
  have next : (doc.get? child).bind (·.next) = after.head? := (linked.beside _ _ _ split).2
  unfold siblings Direction.link
  rw [next]
  exact doc.follow_of_trail _
    (linked.trail_forward (by simpa using split : doc.offspring id = (before ++ [child]) ++ after))

theorem Linked.siblings_backward {before after : List Nat} {child : Nat}
    (split : doc.offspring id = before ++ child :: after) :
    doc.siblings child .backward = before.reverse := by
  have prev : (doc.get? child).bind (·.prev) = before.getLast? := (linked.beside _ _ _ split).1
  unfold siblings Direction.link
  rw [prev]
  exact doc.follow_of_trail _ (linked.trail_backward split)

end Links

/-- The nodes that the root reaches through children. -/
inductive Attached (doc : Document) : Nat → Prop where
  | root : Attached doc root
  | child {id child : Nat} (attached : Attached doc id) (member : child ∈ doc.offspring id) :
      Attached doc child

theorem Attached.placed {doc : Document} (grown : Grown doc) {id : Nat}
    (attached : doc.Attached id) : doc.Placed id := by
  cases attached with
  | root => exact grown.placed_root
  | child _ member => exact placed_of_mem member

theorem Attached.trail_up {doc : Document} (grown : Grown doc) {id : Nat}
    (attached : doc.Attached id) :
    ∃ above, Trail (doc.along (·.parent)) (doc.parent? id) above ∧
      ∀ upper ∈ above, doc.Attached upper := by
  induction attached with
  | root =>
    rw [grown.root_spec.2]
    exact ⟨[], .done, by simp⟩
  | @child id child attached member ih =>
    obtain ⟨above, trail, all⟩ := ih
    rw [(mem_offspring.mp member).2.1]
    exact ⟨id :: above, .move trail, List.forall_mem_cons.mpr ⟨attached, all⟩⟩

theorem Grown.ancestors_root {doc : Document} (grown : Grown doc) : doc.ancestors root = [] := by
  rw [ancestors, grown.root_spec.2]
  exact doc.follow_of_trail _ .done

theorem Attached.ancestors_of_mem {doc : Document} (grown : Grown doc) {id child : Nat}
    (attached : doc.Attached id) (member : child ∈ doc.offspring id) :
    doc.ancestors child = id :: doc.ancestors id := by
  obtain ⟨above, trail, -⟩ := attached.trail_up grown
  have further : Trail (doc.along (·.parent)) (some id) (id :: above) := .move trail
  rw [ancestors, ancestors, (mem_offspring.mp member).2.1, doc.follow_of_trail _ further,
    doc.follow_of_trail _ trail]

theorem Attached.findAncestor?_of_mem {doc : Document} (grown : Grown doc) {id child : Nat}
    (attached : doc.Attached id) (member : child ∈ doc.offspring id) (kind : Kind) :
    doc.findAncestor? child kind =
      if doc.hasKind kind id then some id else doc.findAncestor? id kind := by
  rw [findAncestor?, attached.ancestors_of_mem grown member, List.find?_cons, findAncestor?]
  cases doc.hasKind kind id <;> rfl

theorem Attached.of_findAncestor? {doc : Document} (grown : Grown doc) {id found : Nat}
    (attached : doc.Attached id) {kind : Kind} (up : doc.findAncestor? id kind = some found) :
    doc.Attached found := by
  obtain ⟨above, trail, all⟩ := attached.trail_up grown
  rw [findAncestor?, ancestors, doc.follow_of_trail _ trail] at up
  exact all found (List.mem_of_find?_eq_some up)

def due (id : Nat) : List Nat → Visit
  | child :: _ => ⟨child, .enter⟩
  | [] => ⟨id, .exit⟩

theorem onwards_enter {doc : Document} {id : Nat} (inside : id < doc.size)
    (linked : Linked doc id) (start : Nat) :
    doc.onwards start ⟨id, .enter⟩ = some (due id (doc.offspring id)) := by
  obtain ⟨node, found⟩ := exists_get? inside
  have first : node.firstChild = (doc.offspring id).head? := by
    rw [← linked.first, firstChild?, found, Option.bind_some]
  rw [onwards, found, Option.bind_some, after, first]
  cases doc.offspring id <;> rfl

theorem onwards_exit {doc : Document} {id child : Nat} {before after : List Nat}
    (linked : Linked doc id) (split : doc.offspring id = before ++ child :: after) {start : Nat}
    (other : child ≠ start) : doc.onwards start ⟨child, .exit⟩ = some (due id after) := by
  have member : child ∈ doc.offspring id := by simp [split]
  obtain ⟨inside, named, -⟩ := mem_offspring.mp member
  obtain ⟨node, found⟩ := exists_get? inside
  have next : node.next = after.head? := by
    rw [← (linked.beside _ _ _ split).2, next?, found, Option.bind_some]
  have parent : node.parent = some id := by
    rw [← named, parent?, found, Option.bind_some]
  rw [onwards, found, Option.bind_some, Document.after, if_neg other, next, parent]
  cases after <;> rfl

/-- A walk that comes to a node makes the tour of its subtree before it goes on. -/
theorem Grown.trail_tour {doc : Document} (grown : Grown doc) (start id : Nat)
    (placed : doc.Placed id) (later : start ≤ id) {rest : List Visit}
    (further : Trail (doc.onwards start) (doc.onwards start ⟨id, .exit⟩) rest) :
    Trail (doc.onwards start) (some ⟨id, .enter⟩) (doc.tour id ++ rest) := by
  induction id using doc.offspring_induction generalizing rest with
  | step id ih =>
    have linked := grown.linked id placed.2
    have through : ∀ before ids, doc.offspring id = before ++ ids →
        Trail (doc.onwards start) (some (due id ids))
          (ids.flatMap doc.tour ++ ⟨id, .exit⟩ :: rest) := by
      intro before ids split
      induction ids generalizing before with
      | nil => exact .move further
      | cons child after inner =>
        have member : child ∈ doc.offspring id := by simp [split]
        obtain ⟨-, -, below⟩ := mem_offspring.mp member
        have onward := inner (before ++ [child]) (by simpa using split)
        rw [← onwards_exit linked split (by omega : child ≠ start)] at onward
        have toured := ih child member (placed_of_mem member) (by omega) onward
        simpa [due] using toured
    rw [tour_eq, List.append_assoc, List.cons_append, List.singleton_append]
    apply Trail.move
    rw [onwards_enter placed.1 linked]
    exact through [] (doc.offspring id) rfl

theorem onwards_of_end (doc : Document) (start : NodeId) :
    doc.onwards start ⟨start, .exit⟩ = none := by
  unfold onwards
  cases doc.get? start with
  | none => rfl
  | some node => rw [Option.bind_some, after, if_pos rfl]

theorem Grown.trail_of_tour {doc : Document} (grown : Grown doc) {id : Nat}
    (placed : doc.Placed id) :
    Trail (doc.onwards id) (some ⟨id, .enter⟩) (doc.tour id) := by
  have ended : Trail (doc.onwards id) (doc.onwards id ⟨id, .exit⟩) [] := by
    rw [onwards_of_end]
    exact .done
  have trail := grown.trail_tour id id placed (Nat.le_refl id) ended
  rwa [List.append_nil] at trail

theorem forall_mem_tour {doc : Document} {holds : Nat → Prop}
    (kept : ∀ id child, child ∈ doc.offspring id → holds id → holds child) {id : Nat}
    (start : holds id) : ∀ visit ∈ doc.tour id, holds visit.node := by
  induction id using doc.offspring_induction with
  | step id ih =>
    intro visit member
    rw [tour_eq] at member
    simp only [List.cons_append, List.mem_cons, List.mem_append, List.mem_flatMap,
      List.not_mem_nil, or_false] at member
    rcases member with rfl | ⟨child, offspring, present⟩ | rfl
    · exact start
    · exact ih child offspring (kept id child offspring start) visit present
    · exact start

theorem mem_tour_lt {doc : Document} {id : Nat} (inside : id < doc.size) :
    ∀ visit ∈ doc.tour id, visit.node < doc.size :=
  forall_mem_tour (fun _ _ member _ => (mem_offspring.mp member).1) inside

/-- The walk of a subtree of a grown document is its tour; no link breaks. -/
theorem Grown.walk_eq_tour {doc : Document} (grown : Grown doc) {id : Nat}
    (placed : doc.Placed id) : doc.walk id = (doc.tour id).map .ok := by
  rw [doc.walk_of_trail id (grown.trail_of_tour placed)]
  apply List.map_congr_left
  intro visit member
  obtain ⟨node, found⟩ := exists_get? (mem_tour_lt placed.1 visit member)
  rw [resolve, found]

end Tangle.Document
