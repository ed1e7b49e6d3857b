import Mathlib.Data.List.Infix
import Mathlib.Data.List.TakeWhile
import Tangle.Text.Span

/-!
Spans of a text as parts of it. The text of a span is what stands between two places that lie
between characters, so spans that touch can be joined and a span can be cut wherever a part of its
text ends.
-/

namespace Tangle.Text

theorem eq_nil_of_width_eq_zero {cs : List Char} (nothing : width cs = 0) : cs = [] := by
  cases cs with
  | nil => rfl
  | cons c cs =>
    have positive := c.utf8Size_pos
    simp only [width] at nothing
    omega

theorem exists_of_dropBytes? {n : Nat} {text rest : List Char}
    (dropped : dropBytes? n text = some rest) :
    ∃ before, text = before ++ rest ∧ width before = n := by
  induction n, text using dropBytes?.induct with
  | case1 text =>
    rw [dropBytes?] at dropped
    obtain rfl := Option.some.inj dropped
    exact ⟨[], rfl, rfl⟩
  | case2 n => simp [dropBytes?] at dropped
  | case3 n c text fits ih =>
    rw [dropBytes?, if_pos fits] at dropped
    obtain ⟨before, rfl, same⟩ := ih dropped
    exact ⟨c :: before, rfl, by simp only [width]; omega⟩
  | case4 n c text tooLong =>
    rw [dropBytes?, if_neg tooLong] at dropped
    cases dropped

theorem exists_of_takeBytes? {n : Nat} {text front : List Char}
    (taken : takeBytes? n text = some front) :
    ∃ rest, text = front ++ rest ∧ width front = n := by
  induction n, text using takeBytes?.induct generalizing front with
  | case1 text =>
    rw [takeBytes?] at taken
    obtain rfl := Option.some.inj taken
    exact ⟨text, rfl, rfl⟩
  | case2 n => simp [takeBytes?] at taken
  | case3 n c text fits ih =>
    rw [takeBytes?, if_pos fits] at taken
    obtain ⟨later, next, rfl⟩ := Option.map_eq_some_iff.mp taken
    obtain ⟨rest, rfl, same⟩ := ih next
    exact ⟨rest, rfl, by simp only [width]; omega⟩
  | case4 n c text tooLong =>
    rw [takeBytes?, if_neg tooLong] at taken
    cases taken

variable {text : List Char}

theorem append_inj_of_width {before after front rest : List Char}
    (same : before ++ after = front ++ rest) (widths : width before = width front) :
    before = front ∧ after = rest := by
  have taken := takeBytes?_width_append before after
  have dropped := dropBytes?_width_append before after
  rw [same, widths, takeBytes?_width_append] at taken
  rw [same, widths, dropBytes?_width_append] at dropped
  exact ⟨(Option.some.inj taken).symm, (Option.some.inj dropped).symm⟩

theorem slice?_eq_some {span : Span} {inner : List Char} :
    slice? text span = some inner ↔ ∃ before after, text = before ++ inner ++ after ∧
      width before = span.start ∧ span.stop = span.start + width inner := by
  constructor
  · intro cut
    unfold slice? at cut
    split_ifs at cut with backward
    obtain ⟨rest, dropped, taken⟩ := Option.bind_eq_some_iff.mp cut
    obtain ⟨before, rfl, start⟩ := exists_of_dropBytes? dropped
    obtain ⟨after, rfl, length⟩ := exists_of_takeBytes? taken
    exact ⟨before, after, (List.append_assoc _ _ _).symm, start, by omega⟩
  · rintro ⟨before, after, rfl, start, stop⟩
    obtain rfl : span = ⟨width before, width before + width inner⟩ := by
      cases span
      simp_all
    exact slice?_append before inner after

theorem slice_of_slice? {span : Span} {inner : List Char} (cut : slice? text span = some inner) :
    slice text span = inner := by
  rw [slice, cut]
  rfl

/-- An offset at which a text can be parted. -/
def IsCut (text : List Char) (offset : Nat) : Prop :=
  ∃ before after, text = before ++ after ∧ width before = offset

theorem isCut_start {span : Span} {inner : List Char} (cut : slice? text span = some inner) :
    IsCut text span.start := by
  obtain ⟨before, after, rfl, start, -⟩ := slice?_eq_some.mp cut
  exact ⟨before, inner ++ after, List.append_assoc _ _ _, start⟩

theorem isCut_stop {span : Span} {inner : List Char} (cut : slice? text span = some inner) :
    IsCut text span.stop := by
  obtain ⟨before, after, rfl, start, stop⟩ := slice?_eq_some.mp cut
  exact ⟨before ++ inner, after, rfl, by rw [width_append]; omega⟩

theorem stop_of_slice? {span : Span} {inner : List Char} (cut : slice? text span = some inner) :
    span.stop = span.start + width inner := by
  obtain ⟨-, -, -, -, stop⟩ := slice?_eq_some.mp cut
  exact stop

theorem exists_slice? {start stop : Nat} (first : IsCut text start) (last : IsCut text stop)
    (forward : start ≤ stop) : ∃ inner, slice? text ⟨start, stop⟩ = some inner := by
  obtain ⟨before, rest, same, rfl⟩ := first
  obtain ⟨front, after, rfl, rfl⟩ := last
  have parted : before <+: front ∨ front <+: before :=
    List.prefix_or_prefix_of_prefix ⟨rest, same.symm⟩ ⟨after, rfl⟩
  have shorter : before <+: front := by
    rcases parted with shorter | ⟨more, rfl⟩
    · exact shorter
    · have nothing : more = [] := eq_nil_of_width_eq_zero (by rw [width_append] at forward; omega)
      rw [nothing, List.append_nil]
  obtain ⟨inner, rfl⟩ := shorter
  exact ⟨inner, slice?_eq_some.mpr ⟨before, after, rfl, rfl, width_append before inner⟩⟩

theorem slice?_join {start middle stop : Nat} {front rest : List Char}
    (first : slice? text ⟨start, middle⟩ = some front)
    (second : slice? text ⟨middle, stop⟩ = some rest) :
    slice? text ⟨start, stop⟩ = some (front ++ rest) := by
  obtain ⟨before, _, same, beginning, turn⟩ := slice?_eq_some.mp first
  obtain ⟨head, after, rfl, reached, ending⟩ := slice?_eq_some.mp second
  obtain ⟨rfl, -⟩ : head = before ++ front ∧ rest ++ after = _ := by
    apply append_inj_of_width
    · rw [← same, List.append_assoc]
    · rw [width_append]
      simp only at reached turn beginning
      omega
  refine slice?_eq_some.mpr ⟨before, after, by simp, beginning, ?_⟩
  rw [width_append]
  simp only at turn ending ⊢
  omega

theorem slice?_split {span : Span} {front rest : List Char}
    (cut : slice? text span = some (front ++ rest)) :
    slice? text ⟨span.start, span.start + width front⟩ = some front ∧
      slice? text ⟨span.start + width front, span.stop⟩ = some rest := by
  obtain ⟨before, after, rfl, start, stop⟩ := slice?_eq_some.mp cut
  rw [width_append] at stop
  constructor
  · exact slice?_eq_some.mpr ⟨before, rest ++ after, by simp, start, rfl⟩
  · exact slice?_eq_some.mpr ⟨before ++ front, after, by simp, by rw [width_append, start],
      by simp only; omega⟩

def endRun (p : Char → Bool) (cs : List Char) : List Char := (cs.reverse.takeWhile p).reverse

theorem forall_mem_endRun (p : Char → Bool) (cs : List Char) : ∀ c ∈ endRun p cs, p c := by
  intro c member
  rw [endRun, List.mem_reverse] at member
  exact List.mem_takeWhile_imp member

theorem trimEnd_append {front rest : List Char} (ends : trimEnd rest ≠ []) :
    trimEnd (front ++ rest) = front ++ trimEnd rest := by
  have present : (rest.reverse.dropWhile isBlank).isEmpty = false := by
    simpa [trimEnd, dropEndWhile] using ends
  rw [trimEnd, dropEndWhile, List.reverse_append, List.dropWhile_append, present]
  simp [trimEnd, dropEndWhile]

theorem trimEnd_trimStart_ne_nil {cs : List Char} (kept : trimStart cs ≠ []) :
    trimEnd (trimStart cs) ≠ [] := by
  intro nothing
  have blank : ∀ c ∈ trimStart cs, isBlank c := by
    intro c member
    have gone : (trimStart cs).reverse.dropWhile isBlank = [] := by
      simpa [trimEnd, dropEndWhile] using nothing
    exact List.dropWhile_eq_nil_iff.mp gone c (List.mem_reverse.mpr member)
  have first := List.head_dropWhile_not isBlank kept
  cases (blank _ (List.head_mem kept)).symm.trans first

/-- A text is blank at its front, then the trimmed text, then blank again. -/
theorem trim_parts (cs : List Char) : cs.takeWhile isBlank ++ trimEnd (trimStart cs) ++
    endRun isBlank (trimStart cs) = cs := by
  calc cs.takeWhile isBlank ++ trimEnd (trimStart cs) ++ endRun isBlank (trimStart cs)
    _ = cs.takeWhile isBlank ++ trimStart cs := by
      rw [List.append_assoc, endRun, trimEnd, dropEndWhile_append_takeEnd]
    _ = cs := List.takeWhile_append_dropWhile

theorem trimmed_eq {span : Span} {inner : List Char} (cut : slice? text span = some inner) :
    trimmed text span = ⟨span.start + width (inner.takeWhile isBlank),
      span.start + width (inner.takeWhile isBlank) + width (trimEnd (trimStart inner))⟩ := by
  have stop := stop_of_slice? cut
  have front : inner.takeWhile isBlank ++ trimStart inner = inner := List.takeWhile_append_dropWhile
  have whole : width inner = width (inner.takeWhile isBlank) + width (trimStart inner) := by
    rw [← width_append, front]
  unfold trimmed
  rw [slice_of_slice? cut]
  by_cases blank : trimStart inner = []
  · have none : width (trimEnd inner) = 0 := by
      rw [← front, blank, List.append_nil, trimEnd, dropEndWhile, List.dropWhile_eq_nil_iff.mpr]
      · rfl
      · exact fun c member => List.mem_takeWhile_imp (List.mem_reverse.mp member)
    have rest : width (trimStart inner) = 0 := by rw [blank]; rfl
    have last : width (trimEnd (trimStart inner)) = 0 := by rw [blank]; rfl
    simp only [Span.mk.injEq]
    omega
  · have ends : width (trimEnd inner) =
        width (inner.takeWhile isBlank) + width (trimEnd (trimStart inner)) := by
      rw [← width_append, ← trimEnd_append (trimEnd_trimStart_ne_nil blank), front]
    have later : width (trimStart inner) =
        width (trimEnd (trimStart inner)) + width (endRun isBlank (trimStart inner)) := by
      rw [← width_append]
      exact congrArg width (dropEndWhile_append_takeEnd isBlank (trimStart inner)).symm
    simp only [Span.mk.injEq]
    omega

/-- What is taken off a span by trimming is blank, and the rest is the text of a span. -/
theorem trimmed_spec {span : Span} {inner : List Char} (cut : slice? text span = some inner) :
    ∃ lead core trail, inner = lead ++ core ++ trail ∧ isAllBlank lead ∧ isAllBlank trail ∧
      trimmed text span = ⟨span.start + width lead, span.start + width lead + width core⟩ := by
  exact ⟨inner.takeWhile isBlank, trimEnd (trimStart inner), endRun isBlank (trimStart inner),
    (trim_parts inner).symm, List.all_takeWhile, List.all_eq_true.mpr (forall_mem_endRun _ _),
    trimmed_eq cut⟩

end Tangle.Text
