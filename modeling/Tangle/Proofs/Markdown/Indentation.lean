import Mathlib.Data.List.DropRight
import Mathlib.Data.List.Forall2
import Tangle.Proofs.Markdown.Fences

/-!
Indented code. Its lines lose up to four spaces each and the blank lines at its end are dropped, so
setting a text in by four spaces and adding blank lines after it is undone. A text falls into lines
with a line break and a row without one (`exists_rows`), lines with a line break stay apart when
they are put together (`lines_flatten_append`), and so the lines of dedented code are the kept lines
of the block, each without its indentation (`lines_dedent`).
-/

namespace Tangle.Markdown

open Text

def IsEnded (line : List Char) : Prop := ∃ row, '\n' ∉ row ∧ line = row ++ ['\n']

section Lines

variable {row : List Char} {ended : List (List Char)}

theorem lines_of_row_append (bare : '\n' ∉ row) (rest : List Char) :
    lines (row ++ '\n' :: rest) = (row ++ ['\n']) :: lines rest := by
  induction row with
  | nil => rw [List.nil_append, lines, if_pos rfl, List.nil_append]
  | cons c row ih =>
    rw [List.mem_cons, not_or] at bare
    rw [List.cons_append, lines, if_neg (Ne.symm bare.1), ih bare.2]
    rfl

theorem lines_of_row (bare : '\n' ∉ row) (present : row ≠ []) : lines row = [row] := by
  induction row with
  | nil => exact absurd rfl present
  | cons c row ih =>
    rw [List.mem_cons, not_or] at bare
    rw [lines, if_neg (Ne.symm bare.1)]
    by_cases alone : row = []
    · rw [alone]
      rfl
    · rw [ih bare.2 alone]

theorem lines_flatten_append (all : ∀ line ∈ ended, IsEnded line) (rest : List Char) :
    lines (ended.flatten ++ rest) = ended ++ lines rest := by
  induction ended with
  | nil => rfl
  | cons line ended ih =>
    rw [List.forall_mem_cons] at all
    obtain ⟨⟨row, bare, rfl⟩, later⟩ := all
    calc lines (((row ++ ['\n']) :: ended).flatten ++ rest)
        = lines (row ++ '\n' :: (ended.flatten ++ rest)) := by simp
      _ = (row ++ ['\n']) :: lines (ended.flatten ++ rest) := lines_of_row_append bare _
      _ = (row ++ ['\n']) :: ended ++ lines rest := by rw [ih later, List.cons_append]

theorem lines_flatten (all : ∀ line ∈ ended, IsEnded line) : lines ended.flatten = ended := by
  simpa [lines] using lines_flatten_append all []

theorem exists_rows (text : List Char) :
    ∃ (ended : List (List Char)) (row : List Char),
      (∀ line ∈ ended, IsEnded line) ∧ '\n' ∉ row ∧ text = ended.flatten ++ row := by
  induction text with
  | nil => exact ⟨[], [], by simp, by simp, rfl⟩
  | cons c text ih =>
    obtain ⟨ended, row, all, bare, rfl⟩ := ih
    by_cases ends : c = '\n'
    · subst ends
      refine ⟨['\n'] :: ended, row, List.forall_mem_cons.mpr ⟨⟨[], by simp, rfl⟩, all⟩, bare, rfl⟩
    · cases ended with
      | nil => exact ⟨[], c :: row, by simp, by simp [Ne.symm ends, bare], rfl⟩
      | cons line ended =>
        rw [List.forall_mem_cons] at all
        obtain ⟨⟨first, plain, rfl⟩, later⟩ := all
        refine ⟨(c :: first ++ ['\n']) :: ended, row, ?_, bare, by simp⟩
        exact List.forall_mem_cons.mpr ⟨⟨c :: first, by simp [Ne.symm ends, plain], rfl⟩, later⟩

theorem exists_lines (text : List Char) : ∃ ended row, (∀ line ∈ ended, IsEnded line) ∧
    '\n' ∉ row ∧ text = ended.flatten ++ row ∧
    lines text = ended ++ if row = [] then [] else [row] := by
  obtain ⟨ended, row, all, bare, rfl⟩ := exists_rows text
  refine ⟨ended, row, all, bare, rfl, ?_⟩
  rw [lines_flatten_append all]
  split_ifs with empty
  · rw [empty]
    rfl
  · rw [lines_of_row bare empty]

theorem flatten_lines (text : List Char) : (lines text).flatten = text := by
  obtain ⟨ended, row, -, -, rfl, split⟩ := exists_lines text
  rw [split, List.flatten_append]
  split_ifs with empty <;> simp [empty]

theorem lines_eq_nil {text : List Char} : lines text = [] ↔ text = [] := by
  constructor
  · intro none
    rw [← flatten_lines text, none, List.flatten_nil]
  · intro none
    rw [none, lines]

theorem isAllBlank_iff_lines (text : List Char) :
    isAllBlank text ↔ ∀ line ∈ lines text, isAllBlank line := by
  conv_lhs => rw [← flatten_lines text]
  simp only [isAllBlank, List.all_flatten, List.all_eq_true]

theorem isEnded_of_mem_lines {text line : List Char}
    (ends : text = [] ∨ text.getLast? = some '\n') (member : line ∈ lines text) :
    IsEnded line := by
  obtain ⟨ended, row, all, bare, rfl, split⟩ := exists_lines text
  have empty : row = [] := by
    by_contra present
    rcases ends with none | last
    · exact present (List.append_eq_nil_iff.mp none).2
    · rw [List.getLast?_append_of_ne_nil _ present] at last
      exact bare (List.mem_of_getLast? last)
  rw [split, if_pos empty, List.append_nil] at member
  exact all line member

end Lines

section Indentation

theorem dropSpaces_eq_drop (n : Nat) (line : List Char) :
    dropSpaces n line = line.drop (min n (line.takeWhile (· == ' ')).length) := by
  fun_induction dropSpaces n line with
  | case1 n cs ih => simpa [Nat.succ_min_succ] using ih
  | case2 n cs other =>
    cases n with
    | zero => simp
    | succ n =>
      cases cs with
      | nil => simp
      | cons c cs =>
        have plain : c ≠ ' ' := by
          rintro rfl
          exact other n cs rfl rfl
        simp [plain]

theorem isAllBlank_dropSpaces (n : Nat) (line : List Char) :
    isAllBlank (dropSpaces n line) = isAllBlank line := by
  fun_induction dropSpaces n line with
  | case1 n cs ih =>
    rw [ih]
    rfl
  | case2 n cs other => rfl

theorem dropSpaces_suffix (n : Nat) (line : List Char) : dropSpaces n line <:+ line := by
  rw [dropSpaces_eq_drop]
  exact List.drop_suffix _ line

theorem dropSpaces_ne_nil {line : List Char} (filled : ¬isAllBlank line) (n : Nat) :
    dropSpaces n line ≠ [] := by
  intro none
  rw [← isAllBlank_dropSpaces n, none] at filled
  exact filled rfl

theorem dropSpaces_append_break (n : Nat) (row : List Char) :
    dropSpaces n (row ++ ['\n']) = dropSpaces n row ++ ['\n'] := by
  have leading : (row ++ ['\n']).takeWhile (· == ' ') = row.takeWhile (· == ' ') := by
    rw [List.takeWhile_append]
    split_ifs with full
    · have whole := (List.takeWhile_prefix (· == ' ')).eq_of_length full
      simp [whole]
    · rfl
  have inside : min n (row.takeWhile (· == ' ')).length ≤ row.length :=
    (min_le_right _ _).trans (List.takeWhile_prefix _).length_le
  rw [dropSpaces_eq_drop, dropSpaces_eq_drop, leading, List.drop_append_of_le_length inside]

theorem IsEnded.dropSpaces {line : List Char} (ended : IsEnded line) (n : Nat) :
    IsEnded (dropSpaces n line) := by
  obtain ⟨row, bare, rfl⟩ := ended
  exact ⟨Markdown.dropSpaces n row, mt (dropSpaces_suffix n row).mem bare,
    dropSpaces_append_break n row⟩

theorem IsEnded.withFinalBreak_eq {line : List Char} (ended : IsEnded line) :
    withFinalBreak line = line := by
  obtain ⟨row, -, rfl⟩ := ended
  exact withFinalBreak_concat row

theorem withFinalBreak_append {last : List Char} (present : last ≠ []) (front : List Char) :
    withFinalBreak (front ++ last) = front ++ withFinalBreak last := by
  rw [withFinalBreak, withFinalBreak, List.getLast?_append_of_ne_nil _ present]
  split_ifs with whole ends ends
  · rfl
  · simp_all
  · simp_all
  · rw [List.append_assoc]

theorem isEnded_withFinalBreak {text line : List Char} (member : line ∈ lines text)
    (filled : ¬isAllBlank line) (n : Nat) : IsEnded (withFinalBreak (dropSpaces n line)) := by
  obtain ⟨ended, row, all, bare, -, split⟩ := exists_lines text
  rw [split, List.mem_append] at member
  rcases member with inner | last
  · rw [((all line inner).dropSpaces n).withFinalBreak_eq]
    exact (all line inner).dropSpaces n
  · split_ifs at last with empty
    · cases last
    · rw [List.mem_singleton] at last
      subst last
      have plain : '\n' ∉ dropSpaces n line := mt (dropSpaces_suffix n line).mem bare
      refine ⟨dropSpaces n line, plain, withFinalBreak_of_open (dropSpaces_ne_nil filled n) ?_⟩
      intro ends
      exact plain (List.mem_of_getLast? ends)

/-- The lines of a block up to the last that is not blank. -/
def keptLines (text : List Char) : List (List Char) := (lines text).rdropWhile isAllBlank

theorem dedent_eq_keptLines (text : List Char) :
    dedent text = withFinalBreak ((keptLines text).map (dropSpaces 4)).flatten := by
  have blank : isAllBlank ∘ dropSpaces 4 = isAllBlank := funext (isAllBlank_dropSpaces 4)
  rw [dedent, keptLines, List.rdropWhile, ← List.map_reverse, List.dropWhile_map, blank,
    ← List.map_reverse]

theorem filled_of_getLast?_keptLines {text last : List Char}
    (final : (keptLines text).getLast? = some last) : ¬isAllBlank last := by
  have present : keptLines text ≠ [] := by
    intro none
    rw [none] at final
    cases final
  rw [List.getLast?_eq_some_getLast present, Option.some.injEq] at final
  rw [← final]
  exact List.rdropWhile_last_not _ _ present

theorem isEnded_of_before {text last : List Char} {front rest : List (List Char)}
    (split : lines text = front ++ last :: rest) : ∀ line ∈ front, IsEnded line := by
  obtain ⟨ended, row, all, -, -, parts⟩ := exists_lines text
  rw [parts] at split
  have within : front <+: ended := by
    split_ifs at split
    · rw [List.append_nil] at split
      exact ⟨_, split.symm⟩
    · have shorter := congrArg List.dropLast split
      rw [List.dropLast_concat, List.dropLast_append_of_ne_nil (List.cons_ne_nil _ _)] at shorter
      exact ⟨_, shorter.symm⟩
  intro line member
  exact all line (within.subset member)

/-- The code of a block has the kept lines, each without its indentation and with a line break. -/
theorem lines_dedent (text : List Char) :
    lines (dedent text) = (keptLines text).map fun line => withFinalBreak (dropSpaces 4 line) := by
  rw [dedent_eq_keptLines]
  rcases List.eq_nil_or_concat (keptLines text) with none | ⟨front, last, parts⟩
  · rw [none]
    rfl
  rw [List.concat_eq_append] at parts
  obtain ⟨rest, split⟩ := List.rdropWhile_prefix isAllBlank (lines text)
  rw [← keptLines, parts, List.append_assoc, List.singleton_append] at split
  have filled : ¬isAllBlank last :=
    filled_of_getLast?_keptLines (by rw [parts, List.getLast?_concat])
  have among : last ∈ lines text := by
    rw [← split]
    simp
  have final := isEnded_withFinalBreak among filled 4
  have earlier : ∀ line ∈ front.map (dropSpaces 4), IsEnded line := by
    intro line member
    obtain ⟨inner, before, rfl⟩ := List.mem_map.mp member
    exact (isEnded_of_before split.symm inner before).dropSpaces 4
  have whole : withFinalBreak ((front ++ [last]).map (dropSpaces 4)).flatten =
      (front.map (dropSpaces 4) ++ [withFinalBreak (dropSpaces 4 last)]).flatten := by
    simp only [List.map_append, List.map_singleton, List.flatten_append, List.flatten_singleton]
    exact withFinalBreak_append (dropSpaces_ne_nil filled 4) _
  have unchanged : front.map (fun line => withFinalBreak (dropSpaces 4 line)) =
      front.map (dropSpaces 4) := by
    apply List.map_congr_left
    intro line member
    exact (earlier _ (List.mem_map_of_mem member)).withFinalBreak_eq
  rw [parts, whole, lines_flatten, List.map_append, unchanged, List.map_singleton]
  rw [List.forall_mem_append]
  exact ⟨earlier, by simpa using final⟩

/-- A line set in by four spaces. One that is only a line break may be left as it is. -/
def SetIn (line inner : List Char) : Prop :=
  inner = "    ".toList ++ line ∨ line = ['\n'] ∧ inner = ['\n']

theorem SetIn.dropSpaces_eq {line inner : List Char} (set : SetIn line inner) :
    dropSpaces 4 inner = line := by
  rcases set with rfl | ⟨rfl, rfl⟩
  · cases line <;> rfl
  · rfl

theorem SetIn.isEnded {line inner : List Char} (set : SetIn line inner) (ended : IsEnded line) :
    IsEnded inner := by
  obtain ⟨row, bare, rfl⟩ := ended
  rcases set with rfl | ⟨same, rfl⟩
  · exact ⟨"    ".toList ++ row, by simp [bare], by simp⟩
  · exact ⟨[], by simp, rfl⟩

theorem isEnded_of_setIn {ended inner : List (List Char)} (set : List.Forall₂ SetIn ended inner)
    (all : ∀ line ∈ ended, IsEnded line) : ∀ line ∈ inner, IsEnded line := by
  induction set with
  | nil => simp
  | cons one _ ih =>
    rw [List.forall_mem_cons] at all ⊢
    exact ⟨one.isEnded all.1, ih all.2⟩

theorem keptLines_append {ended : List (List Char)} {trail : List Char}
    (all : ∀ line ∈ ended, IsEnded line) (filled : ∀ last ∈ ended.getLast?, ¬isAllBlank last)
    (blank : isAllBlank trail) : keptLines (ended.flatten ++ trail) = ended := by
  have blanks : ∀ line ∈ (lines trail).reverse, isAllBlank line := by
    intro line member
    exact (isAllBlank_iff_lines trail).mp blank line (List.mem_reverse.mp member)
  have dropped : keptLines (ended.flatten ++ trail) = ended.rdropWhile isAllBlank := by
    rw [keptLines, lines_flatten_append all, List.rdropWhile, List.reverse_append,
      List.dropWhile_append_of_pos blanks]
    rfl
  rw [dropped, List.rdropWhile_eq_self_iff]
  intro present
  exact filled _ (List.getLast?_eq_some_getLast present)

theorem dedent_of_setIn {text trail : List Char} {inner : List (List Char)}
    (ends : text = [] ∨ text.getLast? = some '\n')
    (filled : ∀ last ∈ (lines text).getLast?, ¬isAllBlank last)
    (set : List.Forall₂ SetIn (lines text) inner) (blank : isAllBlank trail) :
    dedent (inner.flatten ++ trail) = text := by
  have undone : inner.map (dropSpaces 4) = lines text := by
    apply Eq.symm
    rw [← List.forall₂_eq_eq_eq, List.forall₂_map_right_iff]
    exact set.imp fun _ _ one => one.dropSpaces_eq.symm
  have all : ∀ line ∈ inner, IsEnded line :=
    isEnded_of_setIn set fun _ member => isEnded_of_mem_lines ends member
  have last : ∀ line ∈ inner.getLast?, ¬isAllBlank line := by
    intro line final
    rw [← isAllBlank_dropSpaces 4]
    apply filled
    rw [← undone, List.getLast?_map, Option.mem_def.mp final]
    rfl
  rw [dedent_eq_keptLines, keptLines_append all last blank, undone, flatten_lines, withFinalBreak,
    if_pos ends]

end Indentation

theorem getLast?_flatten_of_isEnded {ended : List (List Char)} (all : ∀ line ∈ ended, IsEnded line) :
    ended.flatten = [] ∨ ended.flatten.getLast? = some '\n' := by
  rcases List.eq_nil_or_concat ended with rfl | ⟨front, last, rfl⟩
  · exact .inl rfl
  · obtain ⟨row, -, ends⟩ := all last (by simp)
    right
    simp [ends, ← List.append_assoc]

theorem isAllBlank_withFinalBreak (text : List Char) :
    isAllBlank (withFinalBreak text) = isAllBlank text := by
  unfold withFinalBreak
  split_ifs
  · rfl
  · rw [isAllBlank, List.all_append]
    exact Bool.and_true _

theorem keptLines_eq_nil {text : List Char} : keptLines text = [] ↔ isAllBlank text := by
  rw [keptLines, List.rdropWhile_eq_nil_iff, isAllBlank_iff_lines]

theorem exists_last_of_dedent {text : List Char} (filled : ¬isAllBlank text) :
    ∃ before row, dedent text = before ++ (row ++ ['\n']) ∧
      (before = [] ∨ before.getLast? = some '\n') ∧ '\n' ∉ row ∧ ¬isAllBlank row := by
  have split := lines_dedent text
  rcases List.eq_nil_or_concat (keptLines text) with none | ⟨front, last, parts⟩
  · exact absurd (keptLines_eq_nil.mp none) filled
  rw [List.concat_eq_append] at parts
  rw [parts, List.map_append, List.map_singleton] at split
  have solid : ¬isAllBlank last :=
    filled_of_getLast?_keptLines (by rw [parts, List.getLast?_concat])
  have among : last ∈ lines text := by
    apply (List.rdropWhile_prefix isAllBlank (lines text)).mem
    rw [← keptLines, parts]
    simp
  obtain ⟨row, bare, ends⟩ := isEnded_withFinalBreak among solid 4
  have whole := flatten_lines (dedent text)
  rw [split, List.flatten_append, List.flatten_singleton, ends] at whole
  refine ⟨_, row, whole.symm, getLast?_flatten_of_isEnded (isEnded_of_before split), bare, ?_⟩
  intro blank
  apply solid
  rw [← isAllBlank_dropSpaces 4, ← isAllBlank_withFinalBreak, ends, isAllBlank, List.all_append,
    ← isAllBlank, blank]
  rfl

/--
Dedenting gives back a text that was set in by four spaces, with blank lines after it. Of any block
it leaves nothing if the block is blank, and otherwise text that ends with a line break after a line
that is not blank. Its lines are those of the block without the blank ones at the end, each without
up to four leading spaces.
-/
theorem dedent_undoes_indentation (text : List Char) :
    ((text = [] ∨ text.getLast? = some '\n') →
      (∀ last ∈ (lines text).getLast?, ¬isAllBlank last) →
      ∀ inner trail, List.Forall₂ SetIn (lines text) inner → isAllBlank trail →
        dedent (inner.flatten ++ trail) = text) ∧
    (dedent text = [] ↔ isAllBlank text) ∧
    (¬isAllBlank text → ∃ before row, dedent text = before ++ (row ++ ['\n']) ∧
      (before = [] ∨ before.getLast? = some '\n') ∧ '\n' ∉ row ∧ ¬isAllBlank row) ∧
    ∃ kept blank, lines text = kept ++ blank ∧ (∀ line ∈ blank, isAllBlank line) ∧
      (∀ last ∈ kept.getLast?, ¬isAllBlank last) ∧
      lines (dedent text) = kept.map fun line =>
        withFinalBreak (line.drop (min 4 (line.takeWhile (· == ' ')).length)) := by
  refine ⟨fun ends filled inner trail => dedent_of_setIn ends filled, ?_, exists_last_of_dedent, ?_⟩
  · rw [← lines_eq_nil, lines_dedent, List.map_eq_nil_iff, keptLines_eq_nil]
  · refine ⟨keptLines text, (lines text).rtakeWhile isAllBlank, ?_, ?_, ?_, ?_⟩
    · exact List.rdropWhile_append_rtakeWhile.symm
    · intro line member
      exact List.mem_rtakeWhile_imp member
    · intro last final
      exact filled_of_getLast?_keptLines final
    · simpa only [dropSpaces_eq_drop] using lines_dedent text

theorem dedent_undoes_indentation_sparse :
    dedent "    a := 1\n\n      b()\n  \n\t".toList = "a := 1\n\n  b()\n".toList := by
  have split : lines "a := 1\n\n  b()\n".toList =
      ["a := 1\n".toList, "\n".toList, "  b()\n".toList] := by decide
  have set : List.Forall₂ SetIn (lines "a := 1\n\n  b()\n".toList)
      ["    a := 1\n".toList, "\n".toList, "      b()\n".toList] := by
    rw [split]
    exact .cons (.inl (by decide)) (.cons (.inr (by decide)) (.cons (.inl (by decide)) .nil))
  exact (dedent_undoes_indentation "a := 1\n\n  b()\n".toList).1 (.inr (by decide)) (by decide)
    _ "  \n\t".toList set (by decide)

end Tangle.Markdown
