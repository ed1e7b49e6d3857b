import Tangle.Proofs.Document.Touring
import Tangle.Proofs.Markdown.Adapting

/-!
Positions in the order of the document. An outline takes the next positions of the document to which
it is added, its top the first and each subtree a stretch of its own, so a walk that enters the nodes
of a document made of outlines counts them from the root on.
-/

namespace Tangle

def Visit.entered? : Visit → Option NodeId
  | ⟨id, .enter⟩ => some id
  | ⟨_, .exit⟩ => none

def entered (visits : List Visit) : List NodeId := visits.filterMap Visit.entered?

@[simp] theorem entered_append (visits others : List Visit) :
    entered (visits ++ others) = entered visits ++ entered others :=
  List.filterMap_append

namespace Document

theorem entered_tour (doc : Document) (id : Nat) :
    entered (doc.tour id) = id :: entered ((doc.offspring id).flatMap doc.tour) := by
  rw [tour_eq, List.cons_append, entered, List.filterMap_cons, List.filterMap_append]
  exact congrArg (id :: ·) (List.append_nil _)

theorem Extends.tour {doc larger : Document} {parent : Nat} (kept : Extends doc larger parent)
    {id : Nat} (inside : id < doc.size) (later : parent < id) : larger.tour id = doc.tour id := by
  induction id using doc.offspring_induction with
  | step id ih =>
    have below : ∀ child ∈ doc.offspring id, larger.tour child = doc.tour child := by
      intro child member
      obtain ⟨bound, -, further⟩ := mem_offspring.mp member
      exact ih child member bound (by omega)
    rw [tour_eq, tour_eq, kept.offspring id inside (by omega), List.flatMap_def, List.flatMap_def,
      List.map_congr_left below]

/-- The positions from one size of a document up to a later one. -/
def stretch (doc larger : Document) : List NodeId :=
  List.range' doc.size (larger.size - doc.size)

theorem stretch_append {doc middle larger : Document} (first : doc.size ≤ middle.size)
    (second : middle.size ≤ larger.size) :
    stretch doc middle ++ stretch middle larger = stretch doc larger := by
  have start : middle.size = doc.size + 1 * (middle.size - doc.size) := by omega
  have total : middle.size - doc.size + (larger.size - middle.size) = larger.size - doc.size := by
    omega
  unfold stretch
  rw [← total, ← List.range'_append, ← start]

theorem stretch_cons {doc larger : Document} (parent : NodeId) (label : Label)
    (grows : (doc.append parent label).size ≤ larger.size) :
    doc.size :: stretch (doc.append parent label) larger = stretch doc larger := by
  have single : stretch doc (doc.append parent label) = [doc.size] := by
    rw [stretch, size_append, Nat.add_sub_cancel_left]
    rfl
  have first : doc.size ≤ (doc.append parent label).size := by
    rw [size_append]
    omega
  calc doc.size :: stretch (doc.append parent label) larger
      = stretch doc (doc.append parent label) ++ stretch (doc.append parent label) larger := by
        rw [single, List.singleton_append]
    _ = stretch doc larger := stretch_append first grows

mutual

theorem entered_appendOutline {doc : Document} (grown : Grown doc) (parent : Nat)
    (outline : Outline) :
    entered ((doc.appendOutline parent outline).tour doc.size) =
      stretch doc (doc.appendOutline parent outline) := by
  cases outline with
  | node label children =>
    have fresh : doc.size < (doc.append parent label).size := by
      rw [size_append]
      omega
    have first : Grown (doc.append parent label) := grown.append parent label
    have childless : (doc.append parent label).offspring doc.size = [] := by
      rw [grown.offspring_append, offspring_eq_nil (Nat.le_refl _), if_neg (by omega)]
      rfl
    have grows := (appendOutlines_spec first fresh children).1.size_le
    have below := entered_appendOutlines first fresh children
      (by rw [childless, List.nil_append] :
        ((doc.append parent label).appendOutlines doc.size children).offspring doc.size = _ ++ _)
    rw [appendOutline, entered_tour, below, stretch_cons parent label grows]

/-- The tours of the new children of a node go through the new positions one by one. -/
theorem entered_appendOutlines {doc : Document} (grown : Grown doc) {parent : Nat}
    (inside : parent < doc.size) (outlines : List Outline) {ids : List Nat}
    (below : (doc.appendOutlines parent outlines).offspring parent =
      doc.offspring parent ++ ids) :
    entered (ids.flatMap (doc.appendOutlines parent outlines).tour) =
      stretch doc (doc.appendOutlines parent outlines) := by
  cases outlines with
  | nil =>
    rw [appendOutlines] at below ⊢
    obtain rfl : ids = [] := by simpa using below
    rw [stretch, Nat.sub_self]
    rfl
  | cons outline rest =>
    obtain ⟨first, added, -⟩ := appendOutline_spec grown inside outline
    have larger := first.size_le
    have fresh : doc.size < (doc.appendOutline parent outline).size := by
      have member : doc.size ∈ (doc.appendOutline parent outline).offspring parent := by
        simp [added]
      exact (mem_offspring.mp member).1
    obtain ⟨second, later, extended, -⟩ := appendOutlines_spec first.grown
      (by omega : parent < (doc.appendOutline parent outline).size) rest
    rw [appendOutlines] at below ⊢
    obtain rfl : ids = doc.size :: later := by
      rw [extended, added, List.append_assoc] at below
      exact (List.append_cancel_left below).symm
    rw [List.flatMap_cons, entered_append, second.tour fresh inside,
      entered_appendOutline grown parent outline,
      entered_appendOutlines first.grown (by omega) rest extended,
      stretch_append larger second.size_le]

end

theorem entered_tour_ofOutlines (outlines : List Outline) :
    entered ((ofOutlines outlines).tour root) = List.range (ofOutlines outlines).size := by
  have start : (root : Nat) < empty.size := by decide
  have childless : empty.offspring root = [] := by decide
  have below := entered_appendOutlines .empty start outlines
    (by rw [childless, List.nil_append] :
      (empty.appendOutlines root outlines).offspring root = _ ++ _)
  have size : (ofOutlines outlines).size = 1 + ((ofOutlines outlines).size - empty.size) := by
    have grows : 1 ≤ (ofOutlines outlines).size := (built_ofOutlines outlines).root_lt
    change _ = 1 + ((ofOutlines outlines).size - 1)
    omega
  rw [entered_tour, List.range_eq_range', size, Nat.add_comm 1, List.range'_succ]
  exact congrArg (root :: ·) below

end Document

/--
Whatever the parse of a text is, the walk of its document ends without a broken link and enters all
positions in order.
-/
theorem Markdown.document_numbered_in_order (source : String) (tree : ParseTree) :
    ∃ visits, Trail ((document source tree).onwards Document.root) (some ⟨Document.root, .enter⟩)
        visits ∧
      (document source tree).walk Document.root = visits.map .ok ∧
      entered visits = List.range (document source tree).size := by
  rw [document_eq_ofOutlines]
  have built := Document.built_ofOutlines (blocksOutlines source.toList tree.children)
  exact ⟨_, built.trail_of_tour built.root_lt, built.grown.walk_eq_tour built.grown.placed_root,
    Document.entered_tour_ofOutlines _⟩

end Tangle
