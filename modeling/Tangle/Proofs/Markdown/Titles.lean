import Tangle.Markdown.Block
import Tangle.Proofs.Text.Trimming

/-!
The title of a heading. Its line is trimmed, and then a run of `#` at the end is taken off together
with the white space before it, if a space or a tab stands right before the run or nothing else is
left. A run that goes on from other text belongs to the title.
-/

namespace Tangle.Markdown

open Text

theorem getLast?_all_of_ne {text : List Char} {c : Char} (last : text.getLast? ≠ some c) :
    text.getLast?.all fun other => !(other == c) := by
  cases final : text.getLast? with
  | none => rfl
  | some d =>
    rw [final] at last
    simpa using last

def openText (text : List Char) : List Char :=
  let opened := dropEndWhile (· == '#') text
  if opened.length = text.length then text
  else match opened.getLast? with
    | none => []
    | some c => if c = ' ' ∨ c = '\t' then trimEnd opened else text

theorem openSpan_eq {source : List Char} {span : Span} {text : List Char}
    (cut : slice? source span = some text) :
    openSpan source span = ⟨span.start, span.start + width (openText text)⟩ := by
  have whole : span = ⟨span.start, span.start + width text⟩ := by
    rw [← stop_of_slice? cut]
  unfold openSpan openText
  rw [slice_of_slice? cut]
  simp only
  split_ifs with same
  · exact whole
  · cases (dropEndWhile (· == '#') text).getLast? with
    | none => rfl
    | some c =>
      simp only
      split_ifs
      · rfl
      · exact whole

theorem openText_begins (text : List Char) : openText text <+: text := by
  have opened := dropEndWhile_begins (· == '#') text
  unfold openText
  simp only
  split_ifs with same
  · exact List.prefix_refl text
  · cases (dropEndWhile (· == '#') text).getLast? with
    | none => exact List.nil_prefix
    | some c =>
      simp only
      split_ifs
      · exact (dropEndWhile_begins isBlank _).trans opened
      · exact List.prefix_refl text

theorem openText_of_last {text : List Char} (last : text.getLast? ≠ some '#') :
    openText text = text := by
  rw [openText, dropEndWhile_eq_self (getLast?_all_of_ne last), if_pos rfl]

/-- What becomes of a run of `#` depends on the character before it. -/
theorem openText_append_run {front : List Char} (last : front.getLast? ≠ some '#') {n : Nat}
    (present : 0 < n) : openText (front ++ List.replicate n '#') =
      match front.getLast? with
      | none => []
      | some c => if c = ' ' ∨ c = '\t' then trimEnd front else front ++ List.replicate n '#' := by
  have hashes : ∀ c ∈ List.replicate n '#', (c == '#') = true := by
    intro c member
    exact beq_iff_eq.mpr (List.eq_of_mem_replicate member)
  have opened : dropEndWhile (· == '#') (front ++ List.replicate n '#') = front := by
    rw [dropEndWhile_append_of_all hashes, dropEndWhile_eq_self (getLast?_all_of_ne last)]
  have longer : front.length ≠ (front ++ List.replicate n '#').length := by
    rw [List.length_append, List.length_replicate]
    omega
  rw [openText, opened, if_neg longer]

theorem openText_of_apart {title gap : List Char} (ends : title.getLast?.all (!isBlank ·))
    (blank : isAllBlank gap) (apart : gap.getLast? = some ' ' ∨ gap.getLast? = some '\t') {n : Nat}
    (present : 0 < n) : openText (title ++ gap ++ List.replicate n '#') = title := by
  have final : ∃ c, (c = ' ' ∨ c = '\t') ∧ (title ++ gap).getLast? = some c := by
    rw [List.getLast?_append]
    rcases apart with space | tab
    · exact ⟨' ', .inl rfl, by rw [space, Option.some_or]⟩
    · exact ⟨'\t', .inr rfl, by rw [tab, Option.some_or]⟩
  obtain ⟨c, own, last⟩ := final
  have other : (title ++ gap).getLast? ≠ some '#' := by
    rw [last]
    rcases own with rfl | rfl <;> decide
  rw [openText_append_run other present, last]
  simp only [if_pos own]
  exact trimEnd_append_of_blank blank ends

theorem openText_replicate (n : Nat) : openText (List.replicate n '#') = [] := by
  cases n with
  | zero => rfl
  | succ n => exact openText_append_run (by simp : [].getLast? ≠ some '#') (Nat.succ_pos n)

theorem openText_of_attached {front : List Char} {c : Char} (hash : c ≠ '#') (space : c ≠ ' ')
    (tab : c ≠ '\t') (n : Nat) :
    openText (front ++ c :: List.replicate n '#') = front ++ c :: List.replicate n '#' := by
  have final : (front ++ [c]).getLast? = some c := List.getLast?_concat ..
  have other : (front ++ [c]).getLast? ≠ some '#' := by
    rw [final]
    simpa using hash
  rw [← List.singleton_append, ← List.append_assoc]
  cases n with
  | zero =>
    rw [List.replicate_zero, List.append_nil]
    exact openText_of_last other
  | succ n =>
    rw [openText_append_run other (Nat.succ_pos n), final]
    simp [space, tab]

theorem isStripped_append_run {title gap : List Char} (stripped : isStripped title)
    (begins : title ≠ []) {n : Nat} (present : 0 < n) :
    isStripped (title ++ gap ++ List.replicate n '#') := by
  apply isStripped_iff.mpr
  constructor
  · rw [List.append_assoc, List.head?_append_of_ne_nil _ begins]
    exact (isStripped_iff.mp stripped).1
  · rw [List.getLast?_append, List.getLast?_replicate, if_neg (by omega), Option.some_or]
    decide

/-- The span of the title of a heading whose line stands somewhere in a source. -/
def titleSpan (before line after : List Char) : Span :=
  openSpan (before ++ line ++ after) (trimmed (before ++ line ++ after) (spanOf before line))

theorem titleSpan_eq {before lead core trail after : List Char} (leads : isAllBlank lead)
    (trails : isAllBlank trail) (stripped : isStripped core) (present : core ≠ []) :
    titleSpan before (lead ++ core ++ trail) after = spanOf (before ++ lead) (openText core) := by
  have cut := slice?_trimmed (slice?_spanOf before (lead ++ core ++ trail) after)
  rw [trim_of_stripped leads stripped trails] at cut
  rw [titleSpan, openSpan_eq cut, trimmed_of_stripped leads trails stripped present]
  rfl

/--
In a line with white space around it, a run of `#` that stands apart from a title is taken off with
all white space before it, whatever the title is. A line of `#` alone has an empty title. A line
that does not end with `#`, or whose last run of `#` goes on from a character other than a space or
a tab, is a title as a whole.
-/
theorem closing_sequence_taken_off {lead trail : List Char} (leads : isAllBlank lead)
    (trails : isAllBlank trail) (before after : List Char) :
    (∀ (title gap : List Char) (n : Nat), title ≠ [] → isStripped title → isAllBlank gap →
      gap.getLast? = some ' ' ∨ gap.getLast? = some '\t' → 0 < n →
      titleSpan before (lead ++ (title ++ gap ++ List.replicate n '#') ++ trail) after =
        spanOf (before ++ lead) title) ∧
    (∀ n : Nat, 0 < n → titleSpan before (lead ++ List.replicate n '#' ++ trail) after =
      spanOf (before ++ lead) []) ∧
    ∀ core : List Char, isStripped core →
      (core.getLast? ≠ some '#' ∨ ∃ (front : List Char) (c : Char) (n : Nat),
        core = front ++ c :: List.replicate n '#' ∧ c ≠ '#' ∧ c ≠ ' ' ∧ c ≠ '\t') →
      let source := before ++ (lead ++ core ++ trail) ++ after
      titleSpan before (lead ++ core ++ trail) after =
        trimmed source (spanOf before (lead ++ core ++ trail)) ∧
      slice? source (titleSpan before (lead ++ core ++ trail) after) = some core := by
  refine ⟨?_, ?_, ?_⟩
  · intro title gap n begins stripped blank apart present
    have nonempty : title ++ gap ++ List.replicate n '#' ≠ [] := by simp [begins]
    rw [titleSpan_eq leads trails (isStripped_append_run stripped begins present) nonempty,
      openText_of_apart (isStripped_iff.mp stripped).2 blank apart present]
  · intro n present
    have stripped : isStripped (List.replicate n '#') := by
      rw [isStripped, List.head?_replicate, List.getLast?_replicate, if_neg (by omega)]
      decide
    have nonempty : List.replicate n '#' ≠ [] := by
      rw [ne_eq, List.replicate_eq_nil_iff]
      omega
    rw [titleSpan_eq leads trails stripped nonempty, openText_replicate]
  · intro core stripped closed source
    have cut : slice? source (trimmed source (spanOf before (lead ++ core ++ trail))) =
        some core := by
      have trimmedCut := slice?_trimmed (slice?_spanOf before (lead ++ core ++ trail) after)
      rwa [trim_of_stripped leads stripped trails] at trimmedCut
    have kept : openText core = core := by
      rcases closed with last | ⟨front, c, n, rfl, hash, space, tab⟩
      · exact openText_of_last last
      · exact openText_of_attached hash space tab n
    have whole : titleSpan before (lead ++ core ++ trail) after =
        trimmed source (spanOf before (lead ++ core ++ trail)) := by
      rw [titleSpan, openSpan_eq cut, kept, ← stop_of_slice? cut]
    exact ⟨whole, whole ▸ cut⟩

theorem closing_sequence_taken_off_sharp :
    isAllBlank [' '] ∧ isStripped "C#".toList ∧ isAllBlank ['\u3000', '\t'] ∧
    titleSpan "##".toList ([' '] ++ ("C#".toList ++ ['\u3000', '\t'] ++ List.replicate 2 '#') ++
      [' ']) ['\n'] = ⟨3, 5⟩ ∧
    titleSpan "##".toList ([' '] ++ "C#".toList ++ [' ']) ['\n'] = ⟨3, 5⟩ ∧
    titleSpan "##".toList ([' '] ++ List.replicate 3 '#' ++ [' ']) ['\n'] = ⟨3, 3⟩ := by
  have blank : isAllBlank [' '] := by decide
  obtain ⟨apart, alone, attached⟩ :=
    closing_sequence_taken_off blank blank "##".toList ['\n']
  refine ⟨blank, by decide, by decide, ?_, ?_, ?_⟩
  · exact apart "C#".toList ['\u3000', '\t'] 2 (by decide) (by decide) (by decide) (by decide)
      (by decide)
  · exact (attached "C#".toList (by decide) (.inr ⟨[], 'C', 1, by decide⟩)).1.trans (by decide)
  · exact alone 3 (by decide)

end Tangle.Markdown
