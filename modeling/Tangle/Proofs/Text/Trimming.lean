import Mathlib.Data.List.DropRight
import Tangle.Proofs.Text.Span

/-!
Trimmed texts. What trimming leaves of a text neither begins nor ends with white space, and of a
text that is blank, then such a core, then blank again it leaves the core, where it stands.
-/

namespace Tangle.Text

def isStripped (cs : List Char) : Bool :=
  cs.head?.all (!isBlank ·) && cs.getLast?.all (!isBlank ·)

theorem isStripped_iff {cs : List Char} : isStripped cs ↔
    cs.head?.all (!isBlank ·) ∧ cs.getLast?.all (!isBlank ·) :=
  Bool.and_eq_true_iff

theorem dropEndWhile_append_of_all {p : Char → Bool} {front run : List Char}
    (all : ∀ c ∈ run, p c) : dropEndWhile p (front ++ run) = dropEndWhile p front := by
  rw [dropEndWhile, List.reverse_append, List.dropWhile_append_of_pos]
  · rfl
  · intro c member
    exact all c (List.mem_reverse.mp member)

theorem dropEndWhile_eq_self {p : Char → Bool} {cs : List Char}
    (last : cs.getLast?.all (!p ·)) : dropEndWhile p cs = cs := by
  apply List.rdropWhile_eq_self_iff.mpr
  intro present
  rw [List.getLast?_eq_some_getLast present] at last
  simpa using last

theorem dropEndWhile_begins (p : Char → Bool) (cs : List Char) : dropEndWhile p cs <+: cs :=
  List.rdropWhile_prefix p cs

theorem trimStart_append_of_blank {lead rest : List Char} (blank : isAllBlank lead)
    (first : rest.head?.all (!isBlank ·)) : trimStart (lead ++ rest) = rest := by
  rw [trimStart, List.dropWhile_append_of_pos (List.all_eq_true.mp blank)]
  cases rest with
  | nil => rfl
  | cons c rest =>
    have kept : isBlank c = false := by simpa using first
    rw [List.dropWhile_cons_of_neg (by simp [kept])]

theorem trimEnd_append_of_blank {front trail : List Char} (blank : isAllBlank trail)
    (last : front.getLast?.all (!isBlank ·)) : trimEnd (front ++ trail) = front := by
  rw [trimEnd, dropEndWhile_append_of_all (List.all_eq_true.mp blank), dropEndWhile_eq_self last]

section Parts

variable {lead core trail : List Char} (leads : isAllBlank lead) (stripped : isStripped core)

include leads stripped

theorem trimStart_of_stripped (present : core ≠ []) :
    trimStart (lead ++ core ++ trail) = core ++ trail := by
  rw [List.append_assoc]
  apply trimStart_append_of_blank leads
  cases core with
  | nil => exact absurd rfl present
  | cons c core => exact (isStripped_iff.mp stripped).1

theorem takeWhile_of_stripped (present : core ≠ []) :
    (lead ++ core ++ trail).takeWhile isBlank = lead := by
  have parts : (lead ++ core ++ trail).takeWhile isBlank ++ trimStart (lead ++ core ++ trail) =
      lead ++ (core ++ trail) := by
    rw [trimStart, List.takeWhile_append_dropWhile, List.append_assoc]
  rw [trimStart_of_stripped leads stripped present] at parts
  exact List.append_cancel_right parts

theorem trim_of_stripped (trails : isAllBlank trail) :
    trimEnd (trimStart (lead ++ core ++ trail)) = core := by
  by_cases present : core = []
  · have blank : ∀ c ∈ lead ++ core ++ trail, isBlank c := by
      rw [present, List.append_nil, List.forall_mem_append]
      exact ⟨List.all_eq_true.mp leads, List.all_eq_true.mp trails⟩
    rw [trimStart, List.dropWhile_eq_nil_iff.mpr blank, present]
    rfl
  · rw [trimStart_of_stripped leads stripped present]
    exact trimEnd_append_of_blank trails (isStripped_iff.mp stripped).2

end Parts

theorem head?_trimStart (cs : List Char) : (trimStart cs).head?.all (!isBlank ·) := by
  have kept := List.head?_dropWhile_not isBlank cs
  rw [trimStart]
  cases first : (cs.dropWhile isBlank).head? with
  | none => rfl
  | some c =>
    rw [first] at kept
    simpa using kept

theorem head?_trimEnd {cs : List Char} (first : cs.head?.all (!isBlank ·)) :
    (trimEnd cs).head?.all (!isBlank ·) := by
  obtain ⟨tail, same⟩ := dropEndWhile_begins isBlank cs
  cases front : trimEnd cs with
  | nil => rfl
  | cons c rest =>
    rw [← same, ← trimEnd, front] at first
    exact first

theorem getLast?_trimEnd (cs : List Char) : (trimEnd cs).getLast?.all (!isBlank ·) := by
  by_cases present : trimEnd cs = []
  · rw [present]
    rfl
  · have last : ¬isBlank ((trimEnd cs).getLast present) :=
      List.rdropWhile_last_not isBlank cs present
    rw [List.getLast?_eq_some_getLast present]
    simpa using last

theorem isStripped_trim (cs : List Char) : isStripped (trimEnd (trimStart cs)) :=
  isStripped_iff.mpr ⟨head?_trimEnd (head?_trimStart cs), getLast?_trimEnd _⟩

variable {text : List Char} {span : Span} {inner : List Char}

/-- The text of a trimmed span is the trimmed text. -/
theorem slice?_trimmed (cut : slice? text span = some inner) :
    slice? text (trimmed text span) = some (trimEnd (trimStart inner)) := by
  have parts : slice? text span = some (inner.takeWhile isBlank ++
      (trimEnd (trimStart inner) ++ endRun isBlank (trimStart inner))) := by
    rw [cut, ← List.append_assoc, trim_parts]
  rw [trimmed_eq cut]
  exact (slice?_split (slice?_split parts).2).1

def spanOf (before inner : List Char) : Span := ⟨width before, width before + width inner⟩

theorem slice?_spanOf (before inner after : List Char) :
    slice? (before ++ inner ++ after) (spanOf before inner) = some inner :=
  slice?_append before inner after

theorem trimmed_of_stripped {before lead core trail after : List Char} (leads : isAllBlank lead)
    (trails : isAllBlank trail) (stripped : isStripped core) (present : core ≠ []) :
    trimmed (before ++ (lead ++ core ++ trail) ++ after) (spanOf before (lead ++ core ++ trail)) =
      spanOf (before ++ lead) core := by
  rw [trimmed_eq (slice?_spanOf _ _ _), takeWhile_of_stripped leads stripped present,
    trim_of_stripped leads stripped trails]
  simp only [spanOf, width_append]

end Tangle.Text
