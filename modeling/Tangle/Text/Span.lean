import Tangle.Text.Blank

/-!
Spans of a text by byte offset. A text is a list of characters and its offsets count the bytes of
its UTF-8 form, so an offset inside a character cuts nothing.
-/

namespace Tangle

/-- A half-open range of byte offsets. Nothing is asked of the two ends. -/
structure Span where
  start : Nat
  stop : Nat
  deriving DecidableEq, Repr

namespace Text

def width : List Char → Nat
  | [] => 0
  | c :: cs => c.utf8Size + width cs

def dropBytes? : Nat → List Char → Option (List Char)
  | 0, cs => some cs
  | _ + 1, [] => none
  | n + 1, c :: cs => if c.utf8Size ≤ n + 1 then dropBytes? (n + 1 - c.utf8Size) cs else none

def takeBytes? : Nat → List Char → Option (List Char)
  | 0, _ => some []
  | _ + 1, [] => none
  | n + 1, c :: cs =>
    if c.utf8Size ≤ n + 1 then (takeBytes? (n + 1 - c.utf8Size) cs).map (c :: ·) else none

/-- The text of a span, if the span lies in the text with both ends between characters. -/
def slice? (text : List Char) (span : Span) : Option (List Char) :=
  if span.stop < span.start then none
  else (dropBytes? span.start text).bind (takeBytes? (span.stop - span.start))

/-- The text of a span; a span that is no slice of the text has none. -/
def slice (text : List Char) (span : Span) : List Char := (slice? text span).getD []

def trimmed (text : List Char) (span : Span) : Span :=
  let inner := slice text span
  let start := span.start + (width inner - width (trimStart inner))
  let stop := span.stop - (width inner - width (trimEnd inner))
  ⟨start, max stop start⟩

@[simp] theorem width_append (cs ds : List Char) : width (cs ++ ds) = width cs + width ds := by
  induction cs with
  | nil => simp [width]
  | cons c cs ih => simp [width, ih, Nat.add_assoc]

theorem dropBytes?_width_append (cs ds : List Char) :
    dropBytes? (width cs) (cs ++ ds) = some ds := by
  induction cs with
  | nil => simp [width, dropBytes?]
  | cons c cs ih =>
    have positive : 0 < c.utf8Size := c.utf8Size_pos
    obtain ⟨n, hn⟩ : ∃ n, width (c :: cs) = n + 1 :=
      ⟨width (c :: cs) - 1, by simp only [width]; omega⟩
    have fits : c.utf8Size ≤ n + 1 := by rw [← hn, width]; omega
    have rest : n + 1 - c.utf8Size = width cs := by rw [← hn, width]; omega
    rw [hn, List.cons_append, dropBytes?, if_pos fits, rest, ih]

theorem takeBytes?_width_append (cs ds : List Char) :
    takeBytes? (width cs) (cs ++ ds) = some cs := by
  induction cs with
  | nil => simp [width, takeBytes?]
  | cons c cs ih =>
    have positive : 0 < c.utf8Size := c.utf8Size_pos
    obtain ⟨n, hn⟩ : ∃ n, width (c :: cs) = n + 1 :=
      ⟨width (c :: cs) - 1, by simp only [width]; omega⟩
    have fits : c.utf8Size ≤ n + 1 := by rw [← hn, width]; omega
    have rest : n + 1 - c.utf8Size = width cs := by rw [← hn, width]; omega
    rw [hn, List.cons_append, takeBytes?, if_pos fits, rest, ih, Option.map_some]

theorem slice?_append (before inner after : List Char) :
    slice? (before ++ inner ++ after) ⟨width before, width before + width inner⟩ = some inner := by
  have forward : ¬ width before + width inner < width before := by omega
  have length : width before + width inner - width before = width inner := by omega
  rw [slice?, if_neg forward, length, List.append_assoc, dropBytes?_width_append,
    Option.bind_some, takeBytes?_width_append]

end Text

end Tangle
