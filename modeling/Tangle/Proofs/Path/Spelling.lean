import Mathlib.Data.List.Basic
import Tangle.Path.Basic

/-!
The spelling of paths. Reading the bytes of a path gives segments without slashes, of which the
first is not what an anchor is written as (`isSpelled_ofBytes`), and every path of that kind is read
from its own bytes (`IsSpelled.ofBytes_toBytes`). So two such paths with one spelling are one path.
-/

namespace Tangle

namespace Text

variable {α : Type} [DecidableEq α] {separator : α}

theorem pieces_of_free {piece : List α} (free : separator ∉ piece) :
    pieces separator piece = [piece] := by
  induction piece with
  | nil => rfl
  | cons a piece ih =>
    rw [List.mem_cons, not_or] at free
    rw [pieces, if_neg (Ne.symm free.1), ih free.2]

theorem pieces_append {piece : List α} (free : separator ∉ piece) (rest : List α) :
    pieces separator (piece ++ separator :: rest) = piece :: pieces separator rest := by
  induction piece with
  | nil => rw [List.nil_append, pieces, if_pos rfl]
  | cons a piece ih =>
    rw [List.mem_cons, not_or] at free
    rw [List.cons_append, pieces, if_neg (Ne.symm free.1), ih free.2]

theorem pieces_joined {parts : List (List α)} (present : parts ≠ [])
    (free : ∀ piece ∈ parts, separator ∉ piece) :
    pieces separator (joined separator parts) = parts := by
  induction parts with
  | nil => exact absurd rfl present
  | cons piece later ih =>
    rw [List.forall_mem_cons] at free
    by_cases last : later = []
    · rw [last]
      exact pieces_of_free free.1
    · rw [joined_cons separator piece last, pieces_append free.1, ih last free.2]

theorem not_mem_of_mem_pieces {list : List α} :
    ∀ piece ∈ pieces separator list, separator ∉ piece := by
  induction list with
  | nil => simp [pieces]
  | cons a rest ih =>
    rw [pieces]
    split_ifs with same
    · simpa using ih
    · cases parts : pieces separator rest with
      | nil => exact absurd parts (pieces_ne_nil separator rest)
      | cons first later =>
        rw [parts, List.forall_mem_cons] at ih
        rw [List.forall_mem_cons, List.mem_cons, not_or]
        exact ⟨⟨Ne.symm same, ih.1⟩, ih.2⟩

end Text

namespace Path

open FileName

/-- Whether a path is as its own bytes are read. -/
structure IsSpelled (path : Path) : Prop where
  free : ∀ segment ∈ path.segments, slash ∉ segment
  bare : path.anchor = .bare → ∀ first ∈ path.segments.head?, counts first = true
  root : path.anchor = .root → path.segments ≠ [[]]

theorem ofBytes_of_bare {bytes : List UInt8}
    (bare : ∀ first ∈ (splitSlashes bytes).head?, counts first = true) :
    ofBytes bytes = ⟨.bare, splitSlashes bytes⟩ := by
  have slashless : ∀ rest, bytes ≠ slash :: rest := by
    rintro rest rfl
    have empty : splitSlashes (slash :: rest) = [] :: splitSlashes rest :=
      Text.pieces_append List.not_mem_nil rest
    rw [empty] at bare
    exact absurd (bare [] rfl) (by decide)
  have dotless : ∀ rest, bytes ≠ dot ++ slash :: rest := by
    rintro rest rfl
    have here : splitSlashes (dot ++ slash :: rest) = dot :: splitSlashes rest :=
      Text.pieces_append (by decide) rest
    rw [here] at bare
    exact absurd (bare dot rfl) (by decide)
  match bytes with
  | [] => exact absurd (bare [] rfl) (by decide)
  | [b] =>
    have apart : b ≠ slash := fun same => slashless [] (by rw [same])
    have alone : splitSlashes [b] = [[b]] := Text.pieces_of_free (by simpa using Ne.symm apart)
    have named : [b] ≠ dot := by
      intro same
      rw [alone, same] at bare
      exact absurd (bare dot rfl) (by decide)
    rw [ofBytes, if_neg apart, if_neg named, alone]
  | a :: b :: rest =>
    have apart : a ≠ slash := fun same => slashless (b :: rest) (by rw [same])
    have named : ¬([a] = dot ∧ b = slash) := by
      rintro ⟨first, rfl⟩
      exact dotless rest (congrArg (· ++ slash :: rest) first)
    rw [ofBytes, if_neg apart, if_neg named]

theorem counts_head_splitSlashes {a b : UInt8} {rest : List UInt8} (apart : a ≠ slash)
    (named : ¬([a] = dot ∧ b = slash)) :
    ∀ first ∈ (splitSlashes (a :: b :: rest)).head?, counts first = true := by
  intro first member
  obtain ⟨later, parts⟩ := List.head?_eq_some_iff.mp member
  have whole := joinSlashes_splitSlashes (a :: b :: rest)
  rw [parts, joinSlashes] at whole
  rw [counts, Bool.and_eq_true, bne_iff_ne, bne_iff_ne]
  by_cases last : later = []
  · subst last
    have alone : first = a :: b :: rest := whole
    simp [alone, dot]
  · rw [Text.joined_cons slash first last] at whole
    constructor
    · rintro rfl
      exact apart (List.cons.inj whole).1.symm
    · rintro rfl
      obtain ⟨start, next⟩ := List.cons.inj whole
      exact named ⟨congrArg ([·]) start.symm, (List.cons.inj next).1.symm⟩

theorem isSpelled_ofBytes (bytes : List UInt8) : (ofBytes bytes).IsSpelled := by
  have free (rest : List UInt8) : ∀ segment ∈ splitSlashes rest, slash ∉ segment :=
    Text.not_mem_of_mem_pieces
  unfold ofBytes
  split
  · exact ⟨by simp, by simp, by simp⟩
  · next b =>
    split_ifs with same named
    · exact ⟨by simp, by simp, by simp⟩
    · exact ⟨by simp, by simp, by simp⟩
    · exact ⟨by simpa using Ne.symm same, by simpa [counts] using named, by simp⟩
  · next a b rest =>
    split_ifs with same named
    · refine ⟨free _, by simp, fun _ empty => ?_⟩
      have nothing : joinSlashes [[]] = b :: rest := empty ▸ joinSlashes_splitSlashes (b :: rest)
      cases nothing
    · exact ⟨free rest, by simp, by simp⟩
    · exact ⟨free _, fun _ => counts_head_splitSlashes same named, by simp⟩

theorem IsSpelled.ofBytes_toBytes {path : Path} (spelled : path.IsSpelled) :
    ofBytes path.toBytes = path := by
  rcases path with ⟨anchor, segments⟩
  by_cases present : segments = []
  · subst present
    cases anchor <;> rfl
  have parts : splitSlashes (joinSlashes segments) = segments :=
    Text.pieces_joined present spelled.free
  cases anchor with
  | bare =>
    have read : ofBytes (joinSlashes segments) = ⟨.bare, splitSlashes (joinSlashes segments)⟩ := by
      apply ofBytes_of_bare
      rw [parts]
      exact spelled.bare rfl
    rw [parts] at read
    exact read
  | here =>
    have written : toBytes ⟨.here, segments⟩ = dot ++ slash :: joinSlashes segments := by
      cases segments with
      | nil => exact absurd rfl present
      | cons first later => rfl
    have read : ofBytes (dot ++ slash :: joinSlashes segments) =
      ⟨.here, splitSlashes (joinSlashes segments)⟩ := rfl
    rw [written, read, parts]
  | root =>
    have written : toBytes ⟨.root, segments⟩ = slash :: joinSlashes segments := rfl
    cases bytes : joinSlashes segments with
    | nil =>
      rw [bytes] at parts
      exact absurd parts.symm (spelled.root rfl)
    | cons b rest =>
      have read : ofBytes (slash :: b :: rest) = ⟨.root, splitSlashes (b :: rest)⟩ := rfl
      rw [written, bytes, read, ← bytes, parts]

end Path

end Tangle
