import Mathlib.Data.List.Basic
import Tangle.Document.Outline

/-!
Documents grow from the empty one by adding nodes. Nothing is asked of the parents: one that is
not there yet leaves its node out of every list of children. What the links of a grown document
say can be read off the parents alone: the children of a node are the later nodes that name it
as their parent, in order, and the links to the first and the last child and between siblings
agree with that list.
-/

namespace Tangle.Document

inductive Grown : Document → Prop where
  | empty : Grown empty
  | append {doc : Document} (grown : Grown doc) (parent : NodeId) (label : Label) :
      Grown (doc.append parent label)

def lastChild? (doc : Document) (id : NodeId) : Option NodeId :=
  (doc.get? id).bind (·.lastChild)

def offspring (doc : Document) (id : Nat) : List Nat :=
  (List.range doc.size).filter fun child => doc.parent? child = some id ∧ id < child

theorem mem_offspring {doc : Document} {id child : Nat} :
    child ∈ doc.offspring id ↔ child < doc.size ∧ doc.parent? child = some id ∧ id < child := by
  simp [offspring]

theorem offspring_nodup (doc : Document) (id : Nat) : (doc.offspring id).Nodup :=
  List.nodup_range.filter _

theorem offspring_eq_nil {doc : Document} {id : Nat} (outside : doc.size ≤ id) :
    doc.offspring id = [] := by
  apply List.eq_nil_iff_forall_not_mem.mpr
  intro child member
  have facts := mem_offspring.mp member
  omega

/-- What adding a node does to a node that is there already. -/
def relink (doc : Document) (parent id : NodeId) (node : Node) : Node :=
  let joined := if doc.lastChild? parent = some id then { node with next := some doc.size } else node
  if parent = id then joined.adopt doc.size else joined

def added (doc : Document) (parent : NodeId) (label : Label) : Node :=
  let node : Node := { label with parent := some parent, prev := doc.lastChild? parent }
  if parent = doc.size then node.adopt doc.size else node

theorem get?_push (doc : Document) (node : Node) (id : Nat) :
    get? ⟨doc.nodes.push node⟩ id = if id = doc.size then some node else doc.get? id := by
  unfold get? size
  rw [Array.getElem?_push]

theorem get?_append_of_ne (doc : Document) (parent : NodeId) (label : Label) (id : Nat)
    (other : id ≠ doc.size) :
    (doc.append parent label).get? id = (doc.get? id).map (doc.relink parent id) := by
  unfold append relink lastChild?
  cases previous : (doc.get? parent).bind (·.lastChild) with
  | none =>
    rw [get?_modify, get?_push, if_neg other]
    by_cases own : parent = id <;> simp [own]
  | some sibling =>
    rw [get?_modify, get?_modify, get?_push, if_neg other]
    by_cases own : parent = id <;> by_cases joined : sibling = id <;>
      simp [own, joined, Function.comp_def]

theorem get?_append_size (doc : Document) (parent : NodeId) (label : Label)
    (inside : ∀ sibling : Nat, doc.lastChild? parent = some sibling → sibling < doc.size) :
    (doc.append parent label).get? doc.size = some (doc.added parent label) := by
  unfold lastChild? at inside
  unfold append added lastChild?
  cases previous : (doc.get? parent).bind (·.lastChild) with
  | none =>
    rw [get?_modify, get?_push, if_pos rfl]
    split_ifs <;> rfl
  | some sibling =>
    have other : sibling ≠ doc.size := Nat.ne_of_lt (inside sibling previous)
    rw [get?_modify, get?_modify, get?_push, if_pos rfl, if_neg other]
    split_ifs <;> rfl

section Fields

variable (doc : Document) (parent id : NodeId) (label : Label) (node : Node)

@[simp] theorem relink_toLabel : (doc.relink parent id node).toLabel = node.toLabel := by
  unfold relink
  split_ifs <;> rfl

@[simp] theorem relink_parent : (doc.relink parent id node).parent = node.parent := by
  unfold relink
  split_ifs <;> rfl

@[simp] theorem relink_prev : (doc.relink parent id node).prev = node.prev := by
  unfold relink
  split_ifs <;> rfl

@[simp] theorem relink_next : (doc.relink parent id node).next =
    if doc.lastChild? parent = some id then some doc.size else node.next := by
  unfold relink
  split_ifs <;> rfl

@[simp] theorem relink_firstChild : (doc.relink parent id node).firstChild =
    if parent = id then node.firstChild.or (some doc.size) else node.firstChild := by
  unfold relink
  split_ifs <;> rfl

@[simp] theorem relink_lastChild : (doc.relink parent id node).lastChild =
    if parent = id then some doc.size else node.lastChild := by
  unfold relink
  split_ifs <;> rfl

@[simp] theorem added_toLabel : (doc.added parent label).toLabel = label := by
  unfold added
  split_ifs <;> rfl

@[simp] theorem added_parent : (doc.added parent label).parent = some parent := by
  unfold added
  split_ifs <;> rfl

@[simp] theorem added_prev : (doc.added parent label).prev = doc.lastChild? parent := by
  unfold added
  split_ifs <;> rfl

@[simp] theorem added_next : (doc.added parent label).next = none := by
  unfold added
  split_ifs <;> rfl

@[simp] theorem added_firstChild : (doc.added parent label).firstChild =
    if parent = doc.size then some doc.size else none := by
  unfold added
  split_ifs <;> rfl

@[simp] theorem added_lastChild : (doc.added parent label).lastChild =
    if parent = doc.size then some doc.size else none := by
  unfold added
  split_ifs <;> rfl

end Fields

theorem get?_empty (id : Nat) :
    empty.get? id = if id = 0 then some { kind := .document } else none := by
  unfold get? empty
  cases id <;> simp

theorem Grown.lastChild_spec {doc : Document} (grown : Grown doc) (id child : Nat)
    (last : doc.lastChild? id = some child) :
    child < doc.size ∧ doc.parent? child = some id := by
  induction grown generalizing id child with
  | empty =>
    unfold lastChild? at last
    rw [get?_empty] at last
    split_ifs at last
    all_goals simp at last
  | @append doc grown parent label ih =>
    have inside : ∀ sibling : Nat, doc.lastChild? parent = some sibling → sibling < doc.size :=
      fun sibling same => (ih parent sibling same).1
    have here : (doc.append parent label).parent? doc.size = some parent := by
      rw [parent?, get?_append_size doc parent label inside]
      simp
    rw [size_append]
    unfold lastChild? at last
    by_cases new : id = doc.size
    · rw [new, get?_append_size doc parent label inside] at last
      simp only [Option.bind_some, added_lastChild, Option.ite_none_right_eq_some,
        Option.some.injEq] at last
      obtain ⟨own, rfl⟩ := last
      exact ⟨by omega, by rw [here, own, new]⟩
    · rw [get?_append_of_ne doc parent label id new, Option.bind_map] at last
      obtain ⟨node, found, same⟩ := Option.bind_eq_some_iff.mp last
      simp only [Function.comp_apply, relink_lastChild] at same
      by_cases own : parent = id
      · rw [if_pos own, Option.some.injEq] at same
        subst same
        exact ⟨by omega, by rw [here, own]⟩
      · rw [if_neg own] at same
        have before : doc.lastChild? id = some child := by
          rw [lastChild?, found]
          exact same
        obtain ⟨bound, named⟩ := ih id child before
        refine ⟨by omega, ?_⟩
        rw [parent?, get?_append_of_ne doc parent label child (by omega), Option.bind_map]
        rw [parent?] at named
        simpa [Function.comp_def] using named

/-- What adding a node leaves at each position. -/
theorem Grown.get?_append {doc : Document} (grown : Grown doc) (parent : NodeId) (label : Label)
    (id : Nat) : (doc.append parent label).get? id =
      if id = doc.size then some (doc.added parent label)
      else (doc.get? id).map (doc.relink parent id) := by
  by_cases new : id = doc.size
  · rw [if_pos new, new]
    exact get?_append_size doc parent label fun sibling last =>
      (grown.lastChild_spec parent sibling last).1
  · rw [if_neg new]
    exact get?_append_of_ne doc parent label id new

theorem exists_get? {doc : Document} {id : Nat} (inside : id < doc.size) :
    ∃ node, doc.get? id = some node := by
  unfold get?
  exact ⟨_, Array.getElem?_eq_getElem inside⟩

section Append

variable {doc : Document} (grown : Grown doc) (parent : NodeId) (label : Label) (id : Nat)

include grown

theorem Grown.parent?_append : (doc.append parent label).parent? id =
    if id = doc.size then some parent else doc.parent? id := by
  unfold parent?
  rw [grown.get?_append]
  split_ifs with new
  · simp
  · cases doc.get? id <;> simp

theorem Grown.prev?_append : (doc.append parent label).prev? id =
    if id = doc.size then doc.lastChild? parent else doc.prev? id := by
  unfold prev?
  rw [grown.get?_append]
  split_ifs with new
  · simp
  · cases doc.get? id <;> simp

theorem Grown.next?_append (inside : id < doc.size) : (doc.append parent label).next? id =
    if doc.lastChild? parent = some id then some doc.size else doc.next? id := by
  unfold next?
  rw [grown.get?_append, if_neg (by omega)]
  obtain ⟨node, found⟩ := exists_get? inside
  simp [found]

theorem Grown.firstChild?_append (inside : id < doc.size) :
    (doc.append parent label).firstChild? id =
      if parent = id then (doc.firstChild? id).or (some doc.size) else doc.firstChild? id := by
  unfold firstChild?
  rw [grown.get?_append, if_neg (by omega)]
  obtain ⟨node, found⟩ := exists_get? inside
  simp [found]

theorem Grown.lastChild?_append (inside : id < doc.size) :
    (doc.append parent label).lastChild? id =
      if parent = id then some doc.size else doc.lastChild? id := by
  rw [lastChild?, lastChild?, grown.get?_append, if_neg (by omega)]
  obtain ⟨node, found⟩ := exists_get? inside
  simp [found]

theorem Grown.offspring_append : (doc.append parent label).offspring id =
    doc.offspring id ++ if parent = id ∧ id < doc.size then [doc.size] else [] := by
  have old : (List.range doc.size).filter (fun child =>
      (doc.append parent label).parent? child = some id ∧ id < child) = doc.offspring id := by
    apply List.filter_congr
    intro child member
    have bound := List.mem_range.mp member
    rw [grown.parent?_append, if_neg (by omega)]
  unfold offspring at old ⊢
  rw [size_append, List.range_succ, List.filter_append, old, List.filter_singleton,
    grown.parent?_append, if_pos rfl]
  simp

end Append

/-- The links of a node to its children, and theirs to each other, agree with the parents. -/
structure Linked (doc : Document) (id : Nat) : Prop where
  first : doc.firstChild? id = (doc.offspring id).head?
  last : doc.lastChild? id = (doc.offspring id).getLast?
  beside : ∀ (before after : List Nat) (child : Nat),
    doc.offspring id = before ++ child :: after →
      doc.prev? child = before.getLast? ∧ doc.next? child = after.head?

theorem linked_of_childless {doc : Document} {id : Nat} (childless : doc.offspring id = [])
    (first : doc.firstChild? id = none) (last : doc.lastChild? id = none) : Linked doc id := by
  refine ⟨by rw [childless, first, List.head?_nil], by rw [childless, last, List.getLast?_nil], ?_⟩
  intro before after child split
  rw [childless] at split
  simp at split

theorem linked_of_outside {doc : Document} {id : Nat} (outside : doc.size ≤ id) :
    Linked doc id := by
  have missing : doc.get? id = none := by
    unfold get?
    exact Array.getElem?_eq_none outside
  apply linked_of_childless (offspring_eq_nil outside)
  · rw [firstChild?, missing, Option.bind_none]
  · rw [lastChild?, missing, Option.bind_none]

theorem linked_empty (id : Nat) : Linked empty id := by
  by_cases start : id = 0
  · subst start
    exact linked_of_childless (by decide) rfl rfl
  · apply linked_of_outside
    change 1 ≤ id
    omega

section Preserved

variable {doc : Document} (grown : Grown doc) (label : Label)

include grown

theorem Grown.linked_new {parent : Nat} (other : parent ≠ doc.size) :
    Linked (doc.append parent label) doc.size := by
  apply linked_of_childless
  · rw [grown.offspring_append, offspring_eq_nil (Nat.le_refl _)]
    simp
  · rw [firstChild?, grown.get?_append, if_pos rfl, Option.bind_some, added_firstChild,
      if_neg other]
  · rw [lastChild?, grown.get?_append, if_pos rfl, Option.bind_some, added_lastChild,
      if_neg other]

theorem Grown.linked_other {parent id : Nat} (inside : id < doc.size) (other : parent ≠ id)
    (linked : Linked doc id) : Linked (doc.append parent label) id := by
  have same : (doc.append parent label).offspring id = doc.offspring id := by
    rw [grown.offspring_append, if_neg fun own => other own.1, List.append_nil]
  refine ⟨?_, ?_, ?_⟩
  · rw [same, grown.firstChild?_append parent label id inside, if_neg other, linked.first]
  · rw [same, grown.lastChild?_append parent label id inside, if_neg other, linked.last]
  · intro before after child split
    rw [same] at split
    have member : child ∈ doc.offspring id := by simp [split]
    obtain ⟨bound, named, -⟩ := mem_offspring.mp member
    have elsewhere : doc.lastChild? parent ≠ some child := by
      intro last
      have owner := (grown.lastChild_spec parent child last).2
      rw [named, Option.some.injEq] at owner
      exact other owner.symm
    rw [grown.prev?_append, if_neg (by omega), grown.next?_append parent label child bound,
      if_neg elsewhere]
    exact linked.beside before after child split

theorem Grown.linked_parent {id : Nat} (inside : id < doc.size) (linked : Linked doc id) :
    Linked (doc.append id label) id := by
  have longer : (doc.append id label).offspring id = doc.offspring id ++ [doc.size] := by
    rw [grown.offspring_append, if_pos ⟨rfl, inside⟩]
  refine ⟨?_, ?_, ?_⟩
  · rw [longer, grown.firstChild?_append id label id inside, if_pos rfl, linked.first,
      List.head?_append]
    rfl
  · rw [longer, grown.lastChild?_append id label id inside, if_pos rfl]
    simp
  · intro before after child split
    rw [longer] at split
    rcases List.eq_nil_or_concat after with rfl | ⟨middle, latest, rfl⟩
    · obtain ⟨rfl, same⟩ := List.append_inj' split rfl
      obtain rfl : doc.size = child := by simpa using same
      rw [grown.prev?_append, if_pos rfl, linked.last, next?, grown.get?_append, if_pos rfl]
      simp
    · have parts : doc.offspring id ++ [doc.size] = (before ++ child :: middle) ++ [latest] := by
        simpa using split
      obtain ⟨old, same⟩ := List.append_inj' parts rfl
      obtain rfl : doc.size = latest := by simpa using same
      have member : child ∈ doc.offspring id := by simp [old]
      have bound := (mem_offspring.mp member).1
      obtain ⟨prev, next⟩ := linked.beside before middle child old
      rw [grown.prev?_append, if_neg (by omega), prev, grown.next?_append id label child bound,
        linked.last, next, old]
      refine ⟨rfl, ?_⟩
      cases middle with
      | nil => simp
      | cons beside middle =>
        have distinct : (before ++ child :: beside :: middle).Nodup := old ▸ doc.offspring_nodup id
        have later : (before ++ child :: beside :: middle).getLast? ≠ some child := by
          intro last
          rw [List.getLast?_append, List.getLast?_cons_cons] at last
          have repeated : child ∈ beside :: middle := by
            apply List.mem_of_getLast?
            simpa [List.getLast?_cons] using last
          exact (List.nodup_cons.mp (List.nodup_append.mp distinct).2.1).1 repeated
        rw [if_neg later]
        simp

end Preserved

/-- In a grown document every node that is not its own parent is linked to its children. -/
theorem Grown.linked {doc : Document} (grown : Grown doc) (id : Nat)
    (placed : doc.parent? id ≠ some id) : Linked doc id := by
  induction grown generalizing id with
  | empty => exact linked_empty id
  | @append doc grown parent label ih =>
    rw [grown.parent?_append] at placed
    rcases Nat.lt_trichotomy id doc.size with inside | rfl | outside
    · rw [if_neg (by omega)] at placed
      by_cases own : parent = id
      · subst own
        exact grown.linked_parent label inside (ih _ placed)
      · exact grown.linked_other label inside own (ih id placed)
    · rw [if_pos rfl] at placed
      exact grown.linked_new label fun own => placed (congrArg some own)
    · exact linked_of_outside (by rw [size_append]; omega)

end Tangle.Document
