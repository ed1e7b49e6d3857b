/-!
Lists cut at a separator.
-/

namespace Tangle.Text

/-- The pieces between separators. There is always one more than there are separators. -/
def pieces {α : Type} [DecidableEq α] (separator : α) : List α → List (List α)
  | [] => [[]]
  | a :: rest =>
    if a = separator then [] :: pieces separator rest
    else match pieces separator rest with
      | [] => [[a]]
      | piece :: later => (a :: piece) :: later

def joined {α : Type} (separator : α) : List (List α) → List α
  | [] => []
  | [piece] => piece
  | piece :: later => piece ++ separator :: joined separator later

theorem pieces_ne_nil {α : Type} [DecidableEq α] (separator : α) (list : List α) :
    pieces separator list ≠ [] := by
  cases list with
  | nil => simp [pieces]
  | cons a rest =>
    rw [pieces]
    split
    · simp
    · split <;> simp

theorem joined_cons {α : Type} (separator : α) (piece : List α) {later : List (List α)}
    (h : later ≠ []) :
    joined separator (piece :: later) = piece ++ separator :: joined separator later := by
  cases later with
  | nil => exact absurd rfl h
  | cons next later => rfl

theorem joined_pieces {α : Type} [DecidableEq α] (separator : α) (list : List α) :
    joined separator (pieces separator list) = list := by
  induction list with
  | nil => rfl
  | cons a rest ih =>
    have present := pieces_ne_nil separator rest
    rw [pieces]
    split
    · next h => rw [joined_cons separator [] present, ih, List.nil_append, h]
    · cases h : pieces separator rest with
      | nil => exact absurd h present
      | cons piece later =>
        rw [h] at ih
        cases later with
        | nil => exact congrArg (a :: ·) ih
        | cons next later =>
          rw [joined_cons separator piece (by simp)] at ih
          simp only [joined_cons separator (a :: piece) (List.cons_ne_nil next later)]
          rw [List.cons_append, ih]

end Tangle.Text
