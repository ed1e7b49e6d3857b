import Mathlib.Logic.Relation
import Tangle.Proofs.Document.Reading
import Tangle.Proofs.Document.Touring

/-!
Decoration and plain text. The plain text of a node is its own text and then the texts of its
children, so a container of a kind that has no text can be put around any children of any node, or
be taken away from around them, and no node above can tell from its text. A node is told from others
by its address, the numbers of the children on the way to it: what happens below an address leaves
the address to the same node, whatever the positions of the nodes are.
-/

namespace Tangle

namespace Outline

def at? : List Nat → Outline → Option Outline
  | [], outline => some outline
  | index :: address, outline => outline.children[index]?.bind (at? address)

/-- Puts a number of children of the node at an address, from one of them on, into a container. -/
def wrap (container : Label) (first count : Nat) : List Nat → Outline → Outline
  | [], node label children =>
    node label (children.take first ++ node container ((children.drop first).take count) ::
      (children.drop first).drop count)
  | index :: address, node label children =>
    node label (children.modify index (wrap container first count address))

def Wraps (address : List Nat) (outline wrapped : Outline) : Prop :=
  ∃ container first count further, container.kind.isLeaf = false ∧
    wrapped = outline.wrap container first count (address ++ further)

/-- Containers are put in and taken out any number of times, at or below an address. -/
def Redecorated (address : List Nat) : Outline → Outline → Prop :=
  Relation.EqvGen (Wraps address)

theorem leafTexts_eq_join (outlines : List Outline) :
    leafTexts outlines = String.join (outlines.map leafText) := by
  induction outlines with
  | nil => rfl
  | cons outline rest ih => rw [leafTexts, ih, List.map_cons, String.join_cons]

theorem leafTexts_append (outlines others : List Outline) :
    leafTexts (outlines ++ others) = leafTexts outlines ++ leafTexts others := by
  rw [leafTexts_eq_join, List.map_append, String.join_append, ← leafTexts_eq_join,
    ← leafTexts_eq_join]

theorem leafTexts_modify {f : Outline → Outline} (same : ∀ outline, (f outline).leafText =
    outline.leafText) (outlines : List Outline) (index : Nat) :
    leafTexts (outlines.modify index f) = leafTexts outlines := by
  induction outlines generalizing index with
  | nil => cases index <;> rfl
  | cons outline rest ih =>
    cases index with
    | zero => rw [List.modify_zero_cons, leafTexts, leafTexts, same]
    | succ index => rw [List.modify_succ_cons, leafTexts, leafTexts, ih]

theorem label_wrap (container : Label) (first count : Nat) (address : List Nat)
    (outline : Outline) : (outline.wrap container first count address).label = outline.label := by
  cases outline with
  | node label children => cases address <;> rfl

section Wrap

variable {container : Label} (plain : container.kind.isLeaf = false) (first count : Nat)

include plain

theorem leafText_wrap (address : List Nat) (outline : Outline) :
    (outline.wrap container first count address).leafText = outline.leafText := by
  induction address generalizing outline with
  | nil =>
    cases outline with
    | node label children =>
      have parted : leafTexts children = leafTexts (children.take first) ++
          (leafTexts ((children.drop first).take count) ++
            leafTexts ((children.drop first).drop count)) := by
        rw [← leafTexts_append, List.take_append_drop, ← leafTexts_append, List.take_append_drop]
      have held : (node container ((children.drop first).take count)).leafText =
          leafTexts ((children.drop first).take count) := leafText_of_not_isLeaf plain
      rw [wrap, leafText, leafText, leafTexts_append, leafTexts, held, parted]
  | cons index address ih =>
    cases outline with
    | node label children => rw [wrap, leafText, leafText, leafTexts_modify ih]

theorem leafText_at?_wrap (address further : List Nat) (outline : Outline) :
    ((outline.wrap container first count (address ++ further)).at? address).map leafText =
      (outline.at? address).map leafText := by
  induction address generalizing outline with
  | nil => exact congrArg some (leafText_wrap plain first count further outline)
  | cons index address ih =>
    cases outline with
    | node label children =>
      rw [List.cons_append, wrap, at?, at?, children_node, children_node, List.getElem?_modify]
      cases children[index]? with
      | none => rfl
      | some child => simpa using ih child

end Wrap

namespace Redecorated

variable {address : List Nat} {outline other : Outline}

theorem view_eq {β : Type} {view : Outline → β} (kept : ∀ outline wrapped,
    Wraps address outline wrapped → view wrapped = view outline)
    (redecorated : Redecorated address outline other) : view other = view outline := by
  induction redecorated with
  | rel outline wrapped step => exact kept outline wrapped step
  | refl outline => rfl
  | symm outline wrapped _ ih => exact ih.symm
  | trans outline between other _ _ first second => exact second.trans first

theorem label_eq (redecorated : Redecorated address outline other) :
    other.label = outline.label := by
  apply redecorated.view_eq
  rintro outline _ ⟨container, first, count, further, -, rfl⟩
  exact label_wrap ..

theorem leafText_eq (redecorated : Redecorated address outline other) :
    (other.at? address).map leafText = (outline.at? address).map leafText := by
  apply redecorated.view_eq
  rintro outline _ ⟨container, first, count, further, plain, rfl⟩
  exact leafText_at?_wrap plain first count address further outline

end Redecorated

end Outline

namespace Document

def nodeAt? (doc : Document) : List Nat → NodeId → Option NodeId
  | [], id => some id
  | index :: address, id => (doc.children id)[index]?.bind (doc.nodeAt? address)

theorem nodeAt?_append (doc : Document) (address further : List Nat) (id : NodeId) :
    doc.nodeAt? (address ++ further) id =
      (doc.nodeAt? address id).bind (doc.nodeAt? further) := by
  induction address generalizing id with
  | nil => rfl
  | cons index address ih =>
    rw [List.cons_append, nodeAt?, nodeAt?, Option.bind_assoc]
    exact congrArg _ (funext ih)

namespace Built

variable {doc : Document} (built : Built doc)

include built

theorem exists_address {id : Nat} (inside : id < doc.size) :
    ∃ address, doc.nodeAt? address root = some id := by
  induction built.attached inside with
  | root => exact ⟨[], rfl⟩
  | @child id child attached member ih =>
    obtain ⟨address, found⟩ := ih (attached.placed built.grown).1
    obtain ⟨index, bound, named⟩ := List.getElem_of_mem member
    have next : (doc.children id)[index]? = some child := by
      rw [built.children_eq, ← named]
      exact List.getElem?_eq_getElem bound
    refine ⟨address ++ [index], ?_⟩
    rw [nodeAt?_append, found, Option.bind_some, nodeAt?, next]
    rfl

theorem nodeAt?_lt {address : List Nat} {id found : Nat} (inside : id < doc.size)
    (reached : doc.nodeAt? address id = some found) : found < doc.size := by
  induction address generalizing id with
  | nil =>
    obtain rfl := Option.some.inj reached
    exact inside
  | cons index address ih =>
    obtain ⟨child, next, further⟩ := Option.bind_eq_some_iff.mp reached
    rw [built.children_eq] at next
    exact ih (mem_offspring.mp (List.mem_of_getElem? next)).1 further

/-- An address leads to the same place in the document and in its tree. -/
theorem outlineAt_nodeAt? (address : List Nat) (id : Nat) :
    (doc.nodeAt? address id).map doc.outlineAt = (doc.outlineAt id).at? address := by
  induction address generalizing id with
  | nil => rfl
  | cons index address ih =>
    rw [nodeAt?, Outline.at?, children_outlineAt, built.children_eq, List.getElem?_map]
    cases (doc.offspring id)[index]? with
    | none => rfl
    | some child => exact ih child

theorem leafText_eq_children {id : Nat} (inside : id < doc.size) :
    ∃ text texts, doc.leafText id = .ok text ∧ (doc.children id).mapM doc.leafText = .ok texts ∧
      text = doc.ownText id ++ String.join texts := by
  have below : ∀ child ∈ doc.children id, doc.Placed child := by
    intro child member
    rw [built.children_eq] at member
    exact placed_of_mem member
  refine ⟨_, _, built.grown.leafText_eq (built.placed inside), built.grown.mapM_leafText below, ?_⟩
  rw [outlineAt_eq, Outline.leafText, Outline.leafTexts_eq_join, List.map_map, ownText_eq inside,
    built.children_eq]
  rfl

/-- Every redecoration of the tree of a document is the tree of a document. -/
theorem exists_redecorated {address : List Nat} {tree : Outline}
    (redecorated : Outline.Redecorated address doc.outline tree) :
    ∃ other, Built other ∧ other.outline = tree := by
  refine ⟨ofOutlines tree.children, built_ofOutlines _, ?_⟩
  have top : tree.label = { kind := .document } := by
    rw [redecorated.label_eq, outline, label_outlineAt, built.grown.labelAt_root]
  rw [outline_ofOutlines, ← top]
  cases tree
  rfl

end Built

/--
The plain text of a node is its own text and then the texts of its children. Every node has an
address. Whatever containers without text are put in or taken out at or below the address of a node,
there is a document with that tree, and however it was built, the node at the address has the text
that it had.
-/
theorem decoration_keeps_leafText {doc : Document} (built : Built doc) :
    (∀ id, id < doc.size → ∃ text texts, doc.leafText id = .ok text ∧
      (doc.children id).mapM doc.leafText = .ok texts ∧
      text = doc.ownText id ++ String.join texts) ∧
    (∀ id, id < doc.size → ∃ address, doc.nodeAt? address root = some id) ∧
    ∀ id address tree, doc.nodeAt? address root = some id →
      Outline.Redecorated address doc.outline tree →
      (∃ other, Built other ∧ other.outline = tree) ∧
      ∀ other, Built other → other.outline = tree →
        ∃ twin text, other.nodeAt? address root = some twin ∧
          doc.leafText id = .ok text ∧ other.leafText twin = .ok text := by
  refine ⟨fun _ => built.leafText_eq_children, fun _ => built.exists_address, ?_⟩
  intro id address tree found redecorated
  refine ⟨built.exists_redecorated redecorated, ?_⟩
  rintro other builtOther rfl
  have texts := redecorated.leafText_eq
  rw [outline, outline, ← built.outlineAt_nodeAt?, ← builtOther.outlineAt_nodeAt?, found,
    Option.map_map, Option.map_some, Option.map_some] at texts
  obtain ⟨twin, reached, same⟩ := Option.map_eq_some_iff.mp texts
  have inside := built.placed (built.nodeAt?_lt built.root_lt found)
  have insideOther := builtOther.placed (builtOther.nodeAt?_lt builtOther.root_lt reached)
  refine ⟨twin, _, reached, built.grown.leafText_eq inside, ?_⟩
  rw [builtOther.grown.leafText_eq insideOther]
  exact congrArg Except.ok same

def bareHeading : Document :=
  ofOutlines [.heading 2 [.leaf .text "func ".toList, .leaf .codeSpan "main".toList,
    .leaf .text " (args)".toList]]

def dressedHeading : Document :=
  ofOutlines [.heading 2 [.leaf .text "func ".toList, .branch .link [
    .branch .strong [.leaf .codeSpan "main".toList], .leaf .text " (args)".toList]]]

theorem decoration_keeps_leafText_dressedHeading : Built bareHeading ∧ Built dressedHeading ∧
    bareHeading.nodeAt? [0] root = some 1 ∧
    Outline.Redecorated [0] bareHeading.outline dressedHeading.outline ∧
    ∃ twin, dressedHeading.nodeAt? [0] root = some twin ∧
      dressedHeading.leafText twin = .ok "func main (args)" := by
  have built : Built bareHeading := built_ofOutlines _
  have builtOther : Built dressedHeading := built_ofOutlines _
  have redecorated : Outline.Redecorated [0] bareHeading.outline dressedHeading.outline := by
    refine .trans _ _ _ (.rel _ _ ⟨{ kind := .strong }, 1, 1, [], rfl, rfl⟩)
      (.rel _ _ ⟨{ kind := .link }, 1, 2, [], rfl, ?_⟩)
    rw [bareHeading, dressedHeading, outline_ofOutlines, outline_ofOutlines]
    rfl
  have bare : bareHeading.leafText 1 = .ok "func main (args)" := by decide
  have found : bareHeading.nodeAt? [0] root = some 1 := by decide
  obtain ⟨twin, text, reached, same, kept⟩ :=
    ((decoration_keeps_leafText built).2.2 1 [0] _ found redecorated).2 _ builtOther rfl
  obtain rfl := Except.ok.inj (bare.symm.trans same)
  exact ⟨built, builtOther, found, redecorated, twin, reached, kept⟩

end Document

end Tangle
