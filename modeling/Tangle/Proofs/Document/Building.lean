import Tangle.Proofs.Document.Planting

/-!
Documents in which every node was added below one that was there already. Their links spell out
one ordered tree: all of them lead to nodes of the document, the links to both sides undo each
other, and the links from the first child on pass through the children of a node one by one, in
the order in which these were added, up to the last child.
-/

namespace Tangle

def Node.link (node : Node) : Link → Option NodeId
  | .parent => node.parent
  | .firstChild => node.firstChild
  | .lastChild => node.lastChild
  | .next => node.next
  | .prev => node.prev

namespace Document

inductive Built : Document → Prop where
  | empty : Built empty
  | append {doc : Document} (built : Built doc) {parent : Nat} (inside : parent < doc.size)
      (label : Label) : Built (doc.append parent label)

theorem Built.grown {doc : Document} (built : Built doc) : Grown doc := by
  induction built with
  | empty => exact .empty
  | append _ _ label ih => exact .append ih _ label

theorem Built.root_lt {doc : Document} (built : Built doc) : root < doc.size :=
  built.grown.root_spec.1

mutual

theorem Built.appendOutline {doc : Document} (built : Built doc) {parent : Nat}
    (inside : parent < doc.size) (outline : Outline) :
    Built (doc.appendOutline parent outline) := by
  cases outline with
  | node label children =>
    have fresh : doc.size < (doc.append parent label).size := by
      rw [size_append]
      omega
    rw [Document.appendOutline]
    exact (built.append inside label).appendOutlines fresh children

theorem Built.appendOutlines {doc : Document} (built : Built doc) {parent : Nat}
    (inside : parent < doc.size) (outlines : List Outline) :
    Built (doc.appendOutlines parent outlines) := by
  cases outlines with
  | nil => exact built
  | cons outline rest =>
    have larger := (appendOutline_spec built.grown inside outline).1.size_le
    rw [Document.appendOutlines]
    exact (built.appendOutline inside outline).appendOutlines (by omega) rest

end

theorem built_ofOutlines (outlines : List Outline) : Built (ofOutlines outlines) :=
  Built.empty.appendOutlines (by decide) outlines

def link? (doc : Document) (link : Link) (id : NodeId) : Option NodeId :=
  (doc.get? id).bind (·.link link)

/-- What the links of a document say of one another. -/
structure WellLinked (doc : Document) : Prop where
  resolves : ∀ (link : Link) (id target : Nat), doc.link? link id = some target → target < doc.size
  root_alone : doc.parent? root = none ∧ doc.prev? root = none ∧ doc.next? root = none
  parent_lt : ∀ id, id < doc.size → id ≠ root →
    ∃ parent : Nat, doc.parent? id = some parent ∧ parent < id
  next_iff_prev : ∀ id sibling, doc.next? id = some sibling ↔ doc.prev? sibling = some id
  next_spec : ∀ id sibling : Nat, doc.next? id = some sibling → id < sibling ∧
    ∃ parent, doc.parent? id = some parent ∧ doc.parent? sibling = some parent
  /-- The links to the next sibling lead through the children and end. -/
  children_trail : ∀ id, Trail (doc.along (·.next)) (doc.firstChild? id) (doc.children id)
  mem_children : ∀ id child, child ∈ doc.children id ↔ doc.parent? child = some id
  children_sorted : ∀ id, (doc.children id).Pairwise fun child later : Nat => child < later
  last_child : ∀ id, doc.lastChild? id = (doc.children id).getLast?
  childless : ∀ id, (doc.firstChild? id = none ↔ ∀ child, doc.parent? child ≠ some id) ∧
    (doc.lastChild? id = none ↔ ∀ child, doc.parent? child ≠ some id)

theorem lt_size_of_link? {doc : Document} (link : Link) {id target : Nat}
    (leads : doc.link? link id = some target) : id < doc.size := by
  obtain ⟨node, found, -⟩ := Option.bind_eq_some_iff.mp leads
  exact lt_size_of_get? found

/-- The root is added first and below no node, so it never gets a sibling. -/
theorem Grown.root_alone {doc : Document} (grown : Grown doc) :
    doc.prev? root = none ∧ doc.next? root = none := by
  induction grown with
  | empty => decide
  | @append doc grown parent label ih =>
    obtain ⟨inside, orphan⟩ := grown.root_spec
    have other : root ≠ doc.size := Nat.ne_of_lt inside
    have never : doc.lastChild? parent ≠ some root := by
      intro last
      have named := (grown.lastChild_spec parent root last).2
      rw [orphan] at named
      cases named
    rw [grown.prev?_append, if_neg other, grown.next?_append parent label root inside, if_neg never]
    exact ih

namespace Built

variable {doc : Document} (built : Built doc)

include built

theorem exists_parent {id : Nat} (inside : id < doc.size) (other : id ≠ root) :
    ∃ parent : Nat, doc.parent? id = some parent ∧ parent < id := by
  induction built with
  | empty =>
    have start : id < 1 := inside
    exact absurd (Nat.lt_one_iff.mp start) other
  | @append doc built parent below label ih =>
    rw [built.grown.parent?_append]
    by_cases new : id = doc.size
    · rw [if_pos new]
      exact ⟨parent, rfl, by omega⟩
    · rw [size_append] at inside
      rw [if_neg new]
      exact ih (by omega)

theorem mem_offspring_iff {id child : Nat} :
    child ∈ doc.offspring id ↔ doc.parent? child = some id := by
  constructor
  · intro member
    exact (mem_offspring.mp member).2.1
  · intro named
    have inside : child < doc.size := lt_size_of_link? .parent named
    have other : child ≠ root := by
      rintro rfl
      rw [built.grown.root_spec.2] at named
      cases named
    obtain ⟨parent, same, later⟩ := built.exists_parent inside other
    rw [named, Option.some.injEq] at same
    exact mem_offspring.mpr ⟨inside, named, by omega⟩

theorem placed {id : Nat} (inside : id < doc.size) : doc.Placed id := by
  refine ⟨inside, ?_⟩
  intro own
  obtain ⟨-, -, later⟩ := mem_offspring.mp (built.mem_offspring_iff.mpr own)
  exact Nat.lt_irrefl id later

theorem linked (id : Nat) : Linked doc id := by
  by_cases inside : id < doc.size
  · exact built.grown.linked id (built.placed inside).2
  · exact linked_of_outside (by omega)

theorem children_eq (id : Nat) : doc.children id = doc.offspring id := by
  rw [children, (built.linked id).first]
  exact doc.follow_of_trail _ ((built.linked id).trail_forward (List.nil_append _).symm)

theorem exists_split {id : Nat} (inside : id < doc.size) (other : id ≠ root) :
    ∃ parent before after, doc.offspring parent = before ++ id :: after := by
  obtain ⟨parent, named, -⟩ := built.exists_parent inside other
  obtain ⟨before, after, split⟩ := List.append_of_mem (built.mem_offspring_iff.mpr named)
  exact ⟨parent, before, after, split⟩

theorem next?_eq_some {id sibling : Nat} : doc.next? id = some sibling ↔
    ∃ parent before after, doc.offspring parent = before ++ id :: sibling :: after := by
  constructor
  · intro next
    have inside : id < doc.size := lt_size_of_link? .next next
    have other : id ≠ root := by
      rintro rfl
      rw [built.grown.root_alone.2] at next
      cases next
    obtain ⟨parent, before, after, split⟩ := built.exists_split inside other
    rw [((built.linked parent).beside before after id split).2] at next
    obtain ⟨rest, rfl⟩ := List.head?_eq_some_iff.mp next
    exact ⟨parent, before, rest, split⟩
  · rintro ⟨parent, before, after, split⟩
    exact ((built.linked parent).beside before (sibling :: after) id split).2

theorem prev?_eq_some {id sibling : Nat} : doc.prev? sibling = some id ↔
    ∃ parent before after, doc.offspring parent = before ++ id :: sibling :: after := by
  constructor
  · intro prev
    have inside : sibling < doc.size := lt_size_of_link? .prev prev
    have other : sibling ≠ root := by
      rintro rfl
      rw [built.grown.root_alone.1] at prev
      cases prev
    obtain ⟨parent, before, after, split⟩ := built.exists_split inside other
    rw [((built.linked parent).beside before after sibling split).1] at prev
    obtain ⟨rest, rfl⟩ := List.getLast?_eq_some_iff.mp prev
    exact ⟨parent, rest, after, by simpa using split⟩
  · rintro ⟨parent, before, after, split⟩
    have parted : doc.offspring parent = (before ++ [id]) ++ sibling :: after := by
      simpa using split
    rw [((built.linked parent).beside _ _ _ parted).1, List.getLast?_concat]

theorem mem_offspring_of_link {link : Link} {id target : Nat}
    (leads : doc.link? link id = some target) (aside : link ≠ .parent) :
    ∃ parent, target ∈ doc.offspring parent := by
  cases link with
  | parent => exact absurd rfl aside
  | firstChild =>
    have first : doc.firstChild? id = some target := leads
    rw [(built.linked id).first] at first
    exact ⟨id, List.mem_of_head? first⟩
  | lastChild =>
    have last : doc.lastChild? id = some target := leads
    rw [(built.linked id).last] at last
    exact ⟨id, List.mem_of_getLast? last⟩
  | next =>
    obtain ⟨parent, before, after, split⟩ := built.next?_eq_some.mp leads
    exact ⟨parent, by simp [split]⟩
  | prev =>
    obtain ⟨parent, before, after, split⟩ := built.prev?_eq_some.mp leads
    exact ⟨parent, by simp [split]⟩

theorem link_resolves (link : Link) (id target : Nat) (leads : doc.link? link id = some target) :
    target < doc.size := by
  by_cases upward : link = .parent
  · subst upward
    have later := (mem_offspring.mp (built.mem_offspring_iff.mpr leads)).2.2
    have inside := lt_size_of_link? _ leads
    omega
  · obtain ⟨parent, member⟩ := built.mem_offspring_of_link leads upward
    exact (mem_offspring.mp member).1

theorem offspring_eq_nil_iff {id : Nat} :
    doc.offspring id = [] ↔ ∀ child, doc.parent? child ≠ some id := by
  rw [List.eq_nil_iff_forall_not_mem]
  simp only [built.mem_offspring_iff, ne_eq]

end Built

theorem offspring_sorted (doc : Document) (id : Nat) :
    (doc.offspring id).Pairwise fun child later : Nat => child < later :=
  List.pairwise_lt_range.filter _

/--
Whatever nodes were added in whatever order, each below a node that was there, the links of the
document are those of an ordered tree.
-/
theorem built_wellLinked {doc : Document} (built : Built doc) : WellLinked doc where
  resolves := built.link_resolves
  root_alone := ⟨built.grown.root_spec.2, built.grown.root_alone⟩
  parent_lt := fun _ inside other => built.exists_parent inside other
  next_iff_prev := fun _ _ => built.next?_eq_some.trans built.prev?_eq_some.symm
  next_spec := by
    intro id sibling next
    obtain ⟨parent, before, after, split⟩ := built.next?_eq_some.mp next
    have sorted := doc.offspring_sorted parent
    rw [split, List.pairwise_append] at sorted
    refine ⟨(List.pairwise_cons.mp sorted.2.1).1 sibling List.mem_cons_self, parent, ?_, ?_⟩
    · exact built.mem_offspring_iff.mp (by simp [split])
    · exact built.mem_offspring_iff.mp (by simp [split])
  children_trail := by
    intro id
    rw [built.children_eq, (built.linked id).first]
    exact (built.linked id).trail_forward (List.nil_append _).symm
  mem_children := by
    intro id child
    rw [built.children_eq]
    exact built.mem_offspring_iff
  children_sorted := by
    intro id
    rw [built.children_eq]
    exact doc.offspring_sorted id
  last_child := by
    intro id
    rw [built.children_eq]
    exact (built.linked id).last
  childless := by
    intro id
    rw [(built.linked id).first, (built.linked id).last, List.head?_eq_none_iff,
      List.getLast?_eq_none_iff]
    exact ⟨built.offspring_eq_nil_iff, built.offspring_eq_nil_iff⟩

def alternating : Document :=
  ((((empty.append root { kind := .list }).append 1 { kind := .listItem }).append root
    { kind := .codeBlock, literal := some "return\n" }).append 1 { kind := .listItem }).append root
    { kind := .heading, level := 2 }

theorem built_wellLinked_alternating : Built alternating ∧ WellLinked alternating ∧
    alternating.children root = [1, 3, 5] ∧ alternating.children 1 = [2, 4] ∧
    alternating.next? 2 = some 4 ∧ alternating.lastChild? root = some 5 := by
  have built : Built alternating :=
    .append (.append (.append (.append (.append .empty (by decide) _) (by decide) _) (by decide) _)
      (by decide) _) (by decide) _
  exact ⟨built, built_wellLinked built, by decide, by decide, by decide, by decide⟩

end Document

end Tangle
