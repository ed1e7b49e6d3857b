import Mathlib.Data.List.Forall2
import Mathlib.Data.List.ReduceOption
import Tangle.Proofs.Document.Attachment
import Tangle.Proofs.Emission.Agreement

/-!
Detached nodes are never seen. If the additions of all nodes that are not joined to the root are
struck out and the positions of the others are counted anew, the document that is left holds the
same ordered tree, and so gives the same source and the same signatures.
-/

namespace Tangle.Document

/-- What is left of some additions. -/
structure Remainder where
  /-- For each node of the whole document, its position in what is left of it, if it is kept. -/
  places : List (Option NodeId)
  additions : List Addition
  deriving DecidableEq, Repr

namespace Remainder

def place? (rest : Remainder) (id : Nat) : Option NodeId := rest.places[id]?.join

def add (rest : Remainder) (addition : Addition) : Remainder :=
  match rest.place? addition.parent with
  | some place =>
    ⟨rest.places ++ [some (rest.additions.length + 1)], rest.additions ++ [⟨place, addition.label⟩]⟩
  | none => ⟨rest.places ++ [none], rest.additions⟩

theorem lt_of_place? {rest : Remainder} {id place : Nat} (kept : rest.place? id = some place) :
    id < rest.places.length :=
  (List.getElem?_eq_some_iff.mp (Option.join_eq_some_iff.mp kept)).1

theorem place?_concat {rest : Remainder} {id place : Nat} (kept : rest.place? id = some place)
    (last : Option NodeId) (more : List Addition) :
    place? ⟨rest.places ++ [last], more⟩ id = some place := by
  rw [place?, List.getElem?_append_left (lt_of_place? kept)]
  exact kept

theorem place?_concat_length (places : List (Option NodeId)) (last : Option NodeId)
    (more : List Addition) : place? ⟨places ++ [last], more⟩ places.length = last := by
  rw [place?, List.getElem?_concat_length, Option.join_some]

theorem of_place?_concat {rest : Remainder} {last : Option NodeId} {more : List Addition}
    {id place : Nat} (kept : place? ⟨rest.places ++ [last], more⟩ id = some place) :
    id = rest.places.length ∧ last = some place ∨ rest.place? id = some place := by
  have inside : id < (rest.places ++ [last]).length := lt_of_place? kept
  rw [List.length_append, List.length_singleton] at inside
  by_cases new : id = rest.places.length
  · rw [new, place?_concat_length] at kept
    exact .inl ⟨new, kept⟩
  · rw [place?, List.getElem?_append_left (by omega)] at kept
    exact .inr kept

structure Counted (rest : Remainder) : Prop where
  start : rest.place? root = some root
  range : rest.places.reduceOption = List.range (rest.additions.length + 1)
  injective : ∀ id other place : Nat, rest.place? id = some place →
    rest.place? other = some place → id = other

namespace Counted

variable {rest : Remainder} (counted : rest.Counted)

include counted

theorem place_lt {id place : Nat} (kept : rest.place? id = some place) :
    place < rest.additions.length + 1 := by
  have member : place ∈ rest.places.reduceOption :=
    List.reduceOption_mem_iff.mpr (List.mem_of_getElem? (Option.join_eq_some_iff.mp kept))
  rw [counted.range] at member
  exact List.mem_range.mp member

theorem strike : Counted ⟨rest.places ++ [none], rest.additions⟩ where
  start := place?_concat counted.start _ _
  range := by
    rw [List.reduceOption_append, counted.range]
    exact List.append_nil _
  injective := by
    intro id other place kept kept'
    rcases of_place?_concat kept with ⟨-, missing⟩ | old
    · cases missing
    rcases of_place?_concat kept' with ⟨-, missing⟩ | old'
    · cases missing
    exact counted.injective id other place old old'

theorem keep (addition : Addition) : Counted
    ⟨rest.places ++ [some (rest.additions.length + 1)], rest.additions ++ [addition]⟩ where
  start := place?_concat counted.start _ _
  range := by
    rw [List.reduceOption_append, counted.range, List.length_append, List.length_singleton,
      List.range_succ (n := rest.additions.length + 1)]
    rfl
  injective := by
    have fresh : ∀ {id place : Nat}, rest.place? id = some place →
        some (rest.additions.length + 1) ≠ some place := by
      intro id place kept same
      obtain rfl := Option.some.inj same
      exact Nat.lt_irrefl _ (counted.place_lt kept)
    intro id other place kept kept'
    rcases of_place?_concat kept with ⟨rfl, new⟩ | old <;>
      rcases of_place?_concat kept' with ⟨rfl, new'⟩ | old'
    · rfl
    · exact absurd new (fresh old')
    · exact absurd new' (fresh old)
    · exact counted.injective id other place old old'

end Counted

end Remainder

def remainder (additions : List Addition) : Remainder :=
  additions.foldl Remainder.add ⟨[some root], []⟩

theorem remainder_concat (additions : List Addition) (addition : Addition) :
    remainder (additions ++ [addition]) = (remainder additions).add addition :=
  List.foldl_concat ..

/-- What is left stands for the attached part of a document. -/
structure Mirrors (doc : Document) (rest : Remainder) : Prop where
  length : rest.places.length = doc.size
  counted : rest.Counted
  built : Built (grow rest.additions)
  attached : ∀ id place : Nat, rest.place? id = some place → doc.Attached id
  labels : ∀ id place : Nat, rest.place? id = some place →
    (grow rest.additions).labelAt place = doc.labelAt id
  offspring : ∀ id place : Nat, rest.place? id = some place →
    List.Forall₂ (fun child below => rest.place? child = some below) (doc.offspring id)
      ((grow rest.additions).offspring place)

theorem mirrors_empty : Mirrors empty ⟨[some root], []⟩ := by
  have first : ∀ {id place : Nat}, Remainder.place? ⟨[some root], []⟩ id = some place →
      id = root ∧ place = root := by
    intro id place kept
    have inside : id < 1 := Remainder.lt_of_place? kept
    obtain rfl : id = root := Nat.lt_one_iff.mp inside
    exact ⟨rfl, (Option.some.inj kept).symm⟩
  refine ⟨rfl, ⟨rfl, rfl, ?_⟩, .empty, ?_, ?_, ?_⟩
  · intro id other place kept kept'
    rw [(first kept).1, (first kept').1]
  · intro id place kept
    rw [(first kept).1]
    exact .root
  · intro id place kept
    obtain ⟨rfl, rfl⟩ := first kept
    rfl
  · intro id place kept
    obtain ⟨rfl, rfl⟩ := first kept
    have childless : empty.offspring root = [] := by decide
    exact childless ▸ .nil

namespace Mirrors

variable {doc : Document} {rest : Remainder} (mirrors : Mirrors doc rest)

include mirrors

theorem lt_size {id place : Nat} (kept : rest.place? id = some place) : id < doc.size :=
  mirrors.length ▸ Remainder.lt_of_place? kept

theorem place_lt_size {id place : Nat} (kept : rest.place? id = some place) :
    place < (grow rest.additions).size := by
  rw [size_grow]
  exact mirrors.counted.place_lt kept

section Step

variable (grown : Grown doc) {parent : Nat} (label : Label)

include grown

theorem strike (struck : rest.place? parent = none) :
    Mirrors (doc.append parent label) ⟨rest.places ++ [none], rest.additions⟩ := by
  have old : ∀ {id place : Nat},
      Remainder.place? ⟨rest.places ++ [none], rest.additions⟩ id = some place →
        rest.place? id = some place := by
    intro id place kept
    rcases Remainder.of_place?_concat kept with ⟨-, missing⟩ | old
    · cases missing
    · exact old
  refine ⟨?_, mirrors.counted.strike, mirrors.built, ?_, ?_, ?_⟩
  · rw [List.length_append, mirrors.length, size_append, List.length_singleton]
  · intro id place kept
    exact (mirrors.attached id place (old kept)).append grown parent label
  · intro id place kept
    have inside := mirrors.lt_size (old kept)
    rw [mirrors.labels id place (old kept), grown.labelAt_append, if_neg (by omega)]
  · intro id place kept
    have other : parent ≠ id := by
      rintro rfl
      rw [old kept] at struck
      cases struck
    rw [grown.offspring_append, if_neg fun own => other own.1, List.append_nil]
    exact (mirrors.offspring id place (old kept)).imp fun child below present =>
      Remainder.place?_concat present _ _

theorem offspring_keep {place id target : Nat} (kept : rest.place? parent = some place)
    (old : rest.place? id = some target) :
    List.Forall₂
      (fun child below => Remainder.place? ⟨rest.places ++ [some (rest.additions.length + 1)],
        rest.additions ++ [⟨place, label⟩]⟩ child = some below)
      ((doc.append parent label).offspring id)
      (((grow rest.additions).append place label).offspring target) := by
  have same : parent = id ↔ place = target := by
    constructor
    · rintro rfl
      exact Option.some.inj (kept.symm.trans old)
    · rintro rfl
      exact mirrors.counted.injective parent id place kept old
  have children := (mirrors.offspring id target old).imp fun child below present =>
    Remainder.place?_concat present (some (rest.additions.length + 1))
      (rest.additions ++ [⟨place, label⟩])
  rw [grown.offspring_append, (grown_grow _).offspring_append]
  refine List.rel_append children ?_
  by_cases own : parent = id
  · rw [if_pos ⟨own, mirrors.lt_size old⟩, if_pos ⟨same.mp own, mirrors.place_lt_size old⟩,
      ← mirrors.length, size_grow]
    exact .cons (Remainder.place?_concat_length ..) .nil
  · rw [if_neg fun both => own both.1, if_neg fun both => own (same.mpr both.1)]
    exact .nil

theorem keep {place : Nat} (kept : rest.place? parent = some place) :
    Mirrors (doc.append parent label)
      ⟨rest.places ++ [some (rest.additions.length + 1)], rest.additions ++ [⟨place, label⟩]⟩ := by
  have inside := mirrors.lt_size kept
  have below := mirrors.place_lt_size kept
  have cases : ∀ {id target : Nat},
      Remainder.place? ⟨rest.places ++ [some (rest.additions.length + 1)],
        rest.additions ++ [⟨place, label⟩]⟩ id = some target →
      id = doc.size ∧ target = (grow rest.additions).size ∨ rest.place? id = some target := by
    intro id target present
    rw [← mirrors.length, size_grow]
    exact (Remainder.of_place?_concat present).imp_left
      fun new => ⟨new.1, (Option.some.inj new.2).symm⟩
  refine ⟨?_, mirrors.counted.keep _, ?_, ?_, ?_, ?_⟩
  · rw [List.length_append, mirrors.length, size_append, List.length_singleton]
  · rw [grow_concat]
    exact mirrors.built.append below label
  · intro id target present
    rcases cases present with ⟨rfl, -⟩ | old
    · refine ((mirrors.attached parent place kept).append grown parent label).child ?_
      rw [grown.offspring_append, if_pos ⟨rfl, inside⟩]
      simp
    · exact (mirrors.attached id target old).append grown parent label
  · intro id target present
    rw [grow_concat, (grown_grow _).labelAt_append, grown.labelAt_append]
    rcases cases present with ⟨rfl, rfl⟩ | old
    · rw [if_pos rfl, if_pos rfl]
    · have earlier := mirrors.lt_size old
      have lower := mirrors.place_lt_size old
      rw [if_neg (by omega), if_neg (by omega)]
      exact mirrors.labels id target old
  · intro id target present
    rw [grow_concat]
    rcases cases present with ⟨rfl, rfl⟩ | old
    · rw [grown.offspring_append, (grown_grow _).offspring_append,
        offspring_eq_nil (Nat.le_refl _), offspring_eq_nil (Nat.le_refl _), if_neg (by omega),
        if_neg (by omega)]
      exact .nil
    · exact mirrors.offspring_keep grown label kept old

end Step

theorem outlineAt {id place : Nat} (kept : rest.place? id = some place) :
    doc.outlineAt id = (grow rest.additions).outlineAt place := by
  induction id using doc.offspring_induction generalizing place with
  | step id ih =>
    have below := (List.forall₂_and_left _ _).mpr
      ⟨fun child member => @ih child member, mirrors.offspring id place kept⟩
    have trees : (doc.offspring id).map doc.outlineAt =
        ((grow rest.additions).offspring place).map (grow rest.additions).outlineAt := by
      rw [← List.forall₂_eq_eq_eq, List.forall₂_map_left_iff, List.forall₂_map_right_iff]
      exact below.imp fun child target both => both.1 both.2
    rw [outlineAt_eq, outlineAt_eq, mirrors.labels id place kept, trees]

/-- All children of a node that is kept are kept, so the attached nodes are. -/
theorem isSome_place? {id : Nat} (attached : doc.Attached id) : (rest.place? id).isSome := by
  induction attached with
  | root => rw [mirrors.counted.start, Option.isSome_some]
  | @child id child attached member ih =>
    obtain ⟨place, kept⟩ := Option.isSome_iff_exists.mp ih
    have below := mirrors.offspring id place kept
    generalize doc.offspring id = children at below member
    generalize (grow rest.additions).offspring place = targets at below
    induction below with
    | nil => cases member
    | cons first _ later =>
      rcases List.mem_cons.mp member with rfl | other
      · rw [first, Option.isSome_some]
      · exact later other

end Mirrors

theorem mirrors_remainder (additions : List Addition) :
    Mirrors (grow additions) (remainder additions) := by
  induction additions using List.reverseRecOn with
  | nil => exact mirrors_empty
  | append_singleton additions addition ih =>
    rw [grow_concat, remainder_concat, Remainder.add]
    cases place : (remainder additions).place? addition.parent with
    | none => exact ih.strike (grown_grow additions) addition.label place
    | some target => exact ih.keep (grown_grow additions) addition.label place

theorem isSome_place?_iff {additions : List Addition} {id : Nat} :
    ((remainder additions).place? id).isSome ↔ Joined additions id := by
  have mirrors := mirrors_remainder additions
  rw [← attached_grow_iff]
  constructor
  · intro kept
    obtain ⟨place, same⟩ := Option.isSome_iff_exists.mp kept
    exact mirrors.attached id place same
  · exact mirrors.isSome_place?

theorem outline_remainder (additions : List Addition) :
    (grow (remainder additions).additions).outline = (grow additions).outline := by
  have mirrors := mirrors_remainder additions
  exact (mirrors.outlineAt mirrors.counted.start).symm

/--
Whatever nodes are added below whatever positions, the document gives a source, and the same one
without the nodes that are not joined to the root. The walk visits the joined nodes and no others,
and no search from one of them goes on for ever or leaves them.
-/
theorem emit_ignores_detached (additions : List Addition) :
    (∃ generated, (grow additions).emit = .ok generated ∧
      (grow (remainder additions).additions).emit = .ok generated) ∧
    Mirrors (grow additions) (remainder additions) ∧
    (∀ id, ((remainder additions).place? id).isSome ↔ Joined additions id) ∧
    (∃ visits, Trail ((grow additions).onwards root) (some ⟨root, .enter⟩) visits ∧
      (grow additions).walk root = visits.map .ok ∧ visits.Nodup ∧
      ∀ visit, visit ∈ visits ↔ Joined additions visit.node) ∧
    ∀ id, Joined additions id → (grow additions).Confined id := by
  have grown := grown_grow additions
  have confined : (grow additions).Confined root := Attached.root.confined grown
  refine ⟨⟨_, grown.emit_eq_scanAll, ?_⟩, mirrors_remainder additions, fun _ => isSome_place?_iff,
    ⟨(grow additions).tour root, confined.tour, grown.walk_eq_tour grown.placed_root,
      confined.tour.nodup, ?_⟩, ?_⟩
  · rw [(grown_grow _).emit_eq_scanAll, outline_remainder]
  · intro visit
    rw [mem_tour_root_iff, attached_grow_iff]
  · intro id joined
    exact (attached_grow_iff.mpr joined).confined grown

/-- The chunks at 4, 5 and 6 are below the first of them itself, below that one, and below a node
that comes later. -/
def strays : List Addition :=
  [⟨root, { kind := .heading, level := 2 }⟩, ⟨1, { kind := .text, literal := some "func " }⟩,
    ⟨1, { kind := .codeSpan, literal := some "F" }⟩,
    ⟨4, { kind := .codeBlock, literal := some "own\n" }⟩,
    ⟨4, { kind := .codeBlock, literal := some "below\n" }⟩,
    ⟨8, { kind := .codeBlock, literal := some "early\n" }⟩,
    ⟨root, { kind := .codeBlock, literal := some "return\n" }⟩, ⟨root, { kind := .list }⟩]

theorem emit_ignores_detached_strays :
    (remainder strays).places =
      [some 0, some 1, some 2, some 3, none, none, none, some 4, some 5] ∧
    Joined strays 7 ∧ ¬Joined strays 5 ∧ (grow strays).Confined 7 ∧
    (grow strays).firstChild? 4 = some 4 ∧ (grow strays).emit =
      .ok ⟨"func F()" ++ bodyStart ++ "return\n" ++ bodyEnd, ["func F"]⟩ := by
  obtain ⟨⟨generated, whole, left⟩, -, kept, -, confined⟩ := emit_ignores_detached strays
  have joined : Joined strays 7 := (kept 7).mp (by decide)
  have written : (grow (remainder strays).additions).emit =
      .ok ⟨"func F()" ++ bodyStart ++ "return\n" ++ bodyEnd, ["func F"]⟩ := by decide
  refine ⟨by decide, joined, fun stray => absurd ((kept 5).mpr stray) (by decide),
    confined 7 joined, by decide, ?_⟩
  rw [whole, ← left, written]

end Tangle.Document
