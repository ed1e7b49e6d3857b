import Tangle.Proofs.Document.Tree
import Tangle.Proofs.Outline.Reading

/-!
A document to which outlines are added holds them: what grows below one node leaves the labels and
the children of all others as they were, so the tree of the new document is the old one with the
outlines in place. In particular a document made of outlines has just these below its root.
-/

namespace Tangle.Document

/-- A document that has grown below one node only. -/
structure Extends (doc larger : Document) (parent : Nat) : Prop where
  grown : Grown larger
  size_le : doc.size ≤ larger.size
  labels : ∀ id, id < doc.size → larger.labelAt id = doc.labelAt id
  offspring : ∀ id, id < doc.size → id ≠ parent → larger.offspring id = doc.offspring id

namespace Extends

variable {doc middle larger : Document} {parent : Nat}

theorem refl (grown : Grown doc) : Extends doc doc parent :=
  ⟨grown, Nat.le_refl _, fun _ _ => rfl, fun _ _ _ => rfl⟩

theorem append (grown : Grown doc) (label : Label) :
    Extends doc (doc.append parent label) parent := by
  refine ⟨.append grown parent label, by rw [size_append]; omega, ?_, ?_⟩
  · intro id inside
    rw [grown.labelAt_append, if_neg (by omega)]
  · intro id inside other
    rw [grown.offspring_append, if_neg fun own => other own.1.symm, List.append_nil]

theorem trans {point : Nat} (first : Extends doc middle parent)
    (second : Extends middle larger point) (near : point = parent ∨ doc.size ≤ point) :
    Extends doc larger parent := by
  have sizes := first.size_le
  refine ⟨second.grown, Nat.le_trans first.size_le second.size_le, ?_, ?_⟩
  · intro id inside
    rw [second.labels id (by omega), first.labels id inside]
  · intro id inside other
    rw [second.offspring id (by omega) (by omega), first.offspring id inside other]

theorem outlineAt (kept : Extends doc larger parent) {id : Nat} (inside : id < doc.size)
    (later : parent < id) : larger.outlineAt id = doc.outlineAt id := by
  induction id using doc.offspring_induction with
  | step id ih =>
    rw [outlineAt_eq, outlineAt_eq, kept.labels id inside, kept.offspring id inside (by omega)]
    congr 1
    apply List.map_congr_left
    intro child member
    obtain ⟨bound, -, below⟩ := mem_offspring.mp member
    exact ih child member bound (by omega)

end Extends

mutual

theorem appendOutline_spec {doc : Document} (grown : Grown doc) {parent : Nat}
    (inside : parent < doc.size) (outline : Outline) :
    Extends doc (doc.appendOutline parent outline) parent ∧
      (doc.appendOutline parent outline).offspring parent = doc.offspring parent ++ [doc.size] ∧
      (doc.appendOutline parent outline).outlineAt doc.size = outline := by
  cases outline with
  | node label children =>
    have first : Extends doc (doc.append parent label) parent := .append grown label
    have fresh : doc.size < (doc.append parent label).size := by
      rw [size_append]
      omega
    obtain ⟨second, ids, below, held⟩ := appendOutlines_spec first.grown fresh children
    have childless : (doc.append parent label).offspring doc.size = [] := by
      rw [grown.offspring_append, offspring_eq_nil (Nat.le_refl _), if_neg (by omega)]
      rfl
    rw [childless, List.nil_append] at below
    rw [appendOutline]
    refine ⟨first.trans second (.inr (Nat.le_refl _)), ?_, ?_⟩
    · rw [second.offspring parent (by omega) (by omega), grown.offspring_append,
        if_pos ⟨rfl, inside⟩]
    · rw [outlineAt_eq, second.labels doc.size fresh, grown.labelAt_append, if_pos rfl, below, held]

theorem appendOutlines_spec {doc : Document} (grown : Grown doc) {parent : Nat}
    (inside : parent < doc.size) (outlines : List Outline) :
    Extends doc (doc.appendOutlines parent outlines) parent ∧
      ∃ ids, (doc.appendOutlines parent outlines).offspring parent = doc.offspring parent ++ ids ∧
        ids.map (doc.appendOutlines parent outlines).outlineAt = outlines := by
  cases outlines with
  | nil => exact ⟨.refl grown, [], by rw [appendOutlines, List.append_nil], rfl⟩
  | cons outline rest =>
    obtain ⟨first, added, held⟩ := appendOutline_spec grown inside outline
    have member : doc.size ∈ (doc.appendOutline parent outline).offspring parent := by
      simp [added]
    obtain ⟨fresh, -, -⟩ := mem_offspring.mp member
    obtain ⟨second, ids, below, rest_held⟩ :=
      appendOutlines_spec first.grown (by omega : parent < (doc.appendOutline parent outline).size)
        rest
    rw [appendOutlines]
    refine ⟨first.trans second (.inl rfl), doc.size :: ids, ?_, ?_⟩
    · rw [below, added, List.append_assoc, List.singleton_append]
    · rw [List.map_cons, second.outlineAt fresh inside, held, rest_held]

end

theorem grown_ofOutlines (outlines : List Outline) : Grown (ofOutlines outlines) :=
  (appendOutlines_spec .empty (by decide) outlines).1.grown

theorem outline_ofOutlines (outlines : List Outline) :
    (ofOutlines outlines).outline = .node { kind := .document } outlines := by
  have start : (root : Nat) < empty.size := by decide
  have childless : empty.offspring root = [] := by decide
  obtain ⟨-, ids, below, held⟩ := appendOutlines_spec .empty start outlines
  rw [childless, List.nil_append] at below
  rw [outline, outlineAt_eq, (grown_ofOutlines outlines).labelAt_root, ofOutlines, below, held]

@[simp] theorem children_ofOutlines (outlines : List Outline) :
    (ofOutlines outlines).outline.children = outlines := by
  rw [outline_ofOutlines, Outline.children_node]

end Tangle.Document
