import Tangle.Proofs.Text.Trimming

/-!
Spans computed strictly. A difference of offsets stops at zero, a sum of them has no bound, and a
cut inside a character takes nothing. Here each of these is a fault instead, and so is a change to
a node that is not there. Cutting and trimming make no fault, wherever the ends of a span are.
-/

namespace Tangle

/-- Why a strict computation has no result. -/
inductive Fault where
  /-- A difference that would be below zero. -/
  | negative
  /-- A sum beyond the largest offset. -/
  | tooLarge
  /-- A cut that does not fall between characters of the text. -/
  | noCut
  /-- A position with no node. -/
  | noNode
  deriving DecidableEq, Repr

def Span.FitsIn (span : Span) (limit : Nat) : Prop := span.start ≤ limit ∧ span.stop ≤ limit

instance (span : Span) (limit : Nat) : Decidable (span.FitsIn limit) :=
  inferInstanceAs (Decidable (_ ∧ _))

namespace Strict

open Text

def sub (a b : Nat) : Except Fault Nat := if b ≤ a then .ok (a - b) else .error .negative

def add (limit a b : Nat) : Except Fault Nat :=
  if a + b ≤ limit then .ok (a + b) else .error .tooLarge

def cutAt : Option (List Char) → Except Fault (List Char)
  | some part => .ok part
  | none => .error .noCut

/-- The text of a span that is taken for a slice of the text. -/
def cutOut (text : List Char) (span : Span) : Except Fault (List Char) := do
  let rest ← cutAt (dropBytes? span.start text)
  let length ← sub span.stop span.start
  cutAt (takeBytes? length rest)

def slice (text : List Char) (span : Span) : Except Fault (List Char) :=
  if (slice? text span).isSome then cutOut text span else .ok []

def trimmed (limit : Nat) (text : List Char) (span : Span) : Except Fault Span := do
  let inner ← slice text span
  let start ← add limit span.start (← sub (width inner) (width (trimStart inner)))
  let stop ← sub span.stop (← sub (width inner) (width (trimEnd inner)))
  return ⟨start, max stop start⟩

theorem sub_eq {a b : Nat} (le : b ≤ a) : sub a b = .ok (a - b) := if_pos le

theorem add_eq {limit a b : Nat} (le : a + b ≤ limit) : add limit a b = .ok (a + b) := if_pos le

theorem cutOut_eq {text inner : List Char} {span : Span} (sliced : slice? text span = some inner) :
    cutOut text span = .ok inner := by
  unfold slice? at sliced
  split_ifs at sliced with backward
  obtain ⟨rest, dropped, taken⟩ := Option.bind_eq_some_iff.mp sliced
  rw [cutOut, dropped, sub_eq (by omega)]
  change cutAt (takeBytes? (span.stop - span.start) rest) = .ok inner
  rw [taken]
  rfl

theorem slice_eq (text : List Char) (span : Span) :
    slice text span = .ok (Text.slice text span) := by
  rw [slice, Text.slice]
  cases sliced : slice? text span with
  | none => rfl
  | some inner => exact cutOut_eq sliced

end Strict

namespace Text

theorem width_le_of_begins {front cs : List Char} (begins : front <+: cs) :
    width front ≤ width cs := by
  obtain ⟨rest, rfl⟩ := begins
  rw [width_append]
  omega

theorem width_trimEnd_le (cs : List Char) : width (trimEnd cs) ≤ width cs :=
  width_le_of_begins (dropEndWhile_begins isBlank cs)

theorem width_trimStart_le (cs : List Char) : width (trimStart cs) ≤ width cs := by
  calc width (trimStart cs) ≤ width (cs.takeWhile isBlank) + width (trimStart cs) := by omega
    _ = width cs := by rw [← width_append, trimStart, List.takeWhile_append_dropWhile]

variable (text : List Char) (span : Span)

theorem width_slice_le_stop : width (slice text span) ≤ span.stop := by
  rw [slice]
  cases sliced : slice? text span with
  | none => exact Nat.zero_le _
  | some inner =>
    rw [stop_of_slice? sliced]
    exact Nat.le_add_left _ _

theorem start_add_width_slice_le {limit : Nat} (fits : span.FitsIn limit) :
    span.start + width (slice text span) ≤ limit := by
  rw [slice]
  cases sliced : slice? text span with
  | none => exact fits.1
  | some inner =>
    have stop := stop_of_slice? sliced
    have bound := fits.2
    rw [Option.getD_some]
    omega

end Text

namespace Strict

open Text

variable {limit : Nat} {span : Span} (text : List Char) (fits : span.FitsIn limit)

include fits

theorem trimmed_eq : trimmed limit text span = .ok (Text.trimmed text span) := by
  have begins := width_trimStart_le (Text.slice text span)
  have ends := width_trimEnd_le (Text.slice text span)
  have high := width_slice_le_stop text span
  have bound := start_add_width_slice_le text span fits
  have start := add_eq (show span.start +
    (width (Text.slice text span) - width (trimStart (Text.slice text span))) ≤ limit by omega)
  have stop := sub_eq (show
    width (Text.slice text span) - width (trimEnd (Text.slice text span)) ≤ span.stop by omega)
  rw [trimmed, slice_eq]
  simp only [bind, Except.bind, sub_eq begins, sub_eq ends, start, stop]
  rfl

theorem fitsIn_trimmed : (Text.trimmed text span).FitsIn limit := by
  have bound := start_add_width_slice_le text span fits
  have stop := fits.2
  simp only [Span.FitsIn, Text.trimmed]
  omega

end Strict

end Tangle
