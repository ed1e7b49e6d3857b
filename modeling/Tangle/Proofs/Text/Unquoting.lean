import Mathlib.Tactic.SplitIfs
import Tangle.Text.Quoted

/-!
Reading quoted text back. A reader goes through the characters one by one and keeps what an escape
has told so far. It ends at the first quote that is not escaped, and it gives back every text from
its quoted form, whichever characters are taken to be plain (`unquote_quoteChars`). A quoted text
stands on one line (`break_not_mem_quoteChars`).
-/

namespace Tangle.Text

/-- What the reader is in: nothing, an escape, or a code point of which it has a value so far. -/
inductive Reading where
  | between
  | escaped
  | opened
  | coded (value : Nat)
  deriving DecidableEq, Repr

def hexValue? (c : Char) : Option Nat :=
  if '0' ≤ c ∧ c ≤ '9' then some (c.toNat - 48)
  else if 'a' ≤ c ∧ c ≤ 'f' then some (c.toNat - 87)
  else none

def named? : Char → Option Char
  | '"' => some '"'
  | '\\' => some '\\'
  | '0' => some '\x00'
  | 't' => some '\t'
  | 'n' => some '\n'
  | 'r' => some '\r'
  | _ => none

def Reading.step : Reading → Char → Option (List Char × Reading)
  | .between, c => some (if c = '\\' then ([], .escaped) else ([c], .between))
  | .escaped, c =>
    if c = 'u' then some ([], .opened) else (named? c).map fun done => ([done], .between)
  | .opened, c => if c = '{' then some ([], .coded 0) else none
  | .coded value, c =>
    if c = '}' then some ([Char.ofNat value], .between)
    else (hexValue? c).map fun digit => ([], .coded (16 * value + digit))

/-- The text up to the closing quote, and what follows the quote. -/
def unquoteFrom : Reading → List Char → Option (List Char × List Char)
  | _, [] => none
  | reading, c :: rest =>
    if reading = .between ∧ c = '"' then some ([], rest)
    else (reading.step c).bind fun (done, reading) =>
      (unquoteFrom reading rest).map fun (text, after) => (done ++ text, after)

def unquote : List Char → Option (List Char × List Char)
  | '"' :: rest => unquoteFrom .between rest
  | _ => none

theorem unquoteFrom_of_step {reading next : Reading} {c : Char} {done : List Char}
    (stepped : reading.step c = some (done, next)) (inside : ¬(reading = .between ∧ c = '"'))
    (rest : List Char) :
    unquoteFrom reading (c :: rest) =
      (unquoteFrom next rest).map fun (text, after) => (done ++ text, after) := by
  rw [unquoteFrom, if_neg inside, stepped, Option.bind_some]

theorem unquoteFrom_of_silent {reading next : Reading} {c : Char}
    (stepped : reading.step c = some ([], next)) (inside : ¬(reading = .between ∧ c = '"'))
    (rest : List Char) : unquoteFrom reading (c :: rest) = unquoteFrom next rest := by
  rw [unquoteFrom_of_step stepped inside]
  exact Option.map_id'

theorem unquoteFrom_backslash (rest : List Char) :
    unquoteFrom .between ('\\' :: rest) = unquoteFrom .escaped rest :=
  unquoteFrom_of_silent rfl (by decide) rest

theorem unquoteFrom_opening (rest : List Char) :
    unquoteFrom .escaped ('u' :: '{' :: rest) = unquoteFrom (.coded 0) rest :=
  (unquoteFrom_of_silent rfl (by decide) _).trans (unquoteFrom_of_silent rfl (by decide) rest)

theorem hexValue?_digitChar : ∀ digit < 16, hexValue? (Nat.digitChar digit) = some digit := by
  decide

theorem digitChar_ne_close : ∀ digit < 16, Nat.digitChar digit ≠ '}' := by
  decide

theorem unquoteFrom_digit (value : Nat) {digit : Nat} (small : digit < 16) (rest : List Char) :
    unquoteFrom (.coded value) (Nat.digitChar digit :: rest) =
      unquoteFrom (.coded (16 * value + digit)) rest := by
  have stepped : Reading.step (.coded value) (Nat.digitChar digit) =
      some ([], .coded (16 * value + digit)) := by
    rw [Reading.step, if_neg (digitChar_ne_close digit small), hexValue?_digitChar digit small]
    rfl
  exact unquoteFrom_of_silent stepped (by simp) rest

theorem unquoteFrom_hexDigits (n : Nat) (rest : List Char) :
    unquoteFrom (.coded 0) (hexDigits n ++ rest) = unquoteFrom (.coded n) rest := by
  induction n using Nat.strongRecOn generalizing rest with
  | ind n ih =>
    rw [hexDigits, Nat.toDigits_eq_if (by decide)]
    split_ifs with small
    · rw [List.singleton_append, unquoteFrom_digit 0 small]
      simp
    · have less : n / 16 < n := by omega
      have whole : 16 * (n / 16) + n % 16 = n := by omega
      rw [List.append_assoc, ← hexDigits, ih _ less, List.singleton_append,
        unquoteFrom_digit _ (Nat.mod_lt n (by decide)), whole]

theorem unquoteFrom_quoteChar (plain : Char → Bool) (c : Char) (rest : List Char) :
    unquoteFrom .between (quoteChar plain c ++ rest) =
      (unquoteFrom .between rest).map fun (text, after) => (c :: text, after) := by
  have escapes : ∀ letter, named? letter = some c → letter ≠ 'u' →
      unquoteFrom .between ('\\' :: letter :: rest) =
        (unquoteFrom .between rest).map fun (text, after) => (c :: text, after) := by
    intro letter named other
    have stepped : Reading.step .escaped letter = some ([c], .between) := by
      rw [Reading.step, if_neg other, named, Option.map_some]
    rw [unquoteFrom_backslash]
    exact unquoteFrom_of_step stepped (by simp) rest
  unfold quoteChar
  split
  case h_1 => exact escapes '"' rfl (by decide)
  case h_2 => exact escapes '\\' rfl (by decide)
  case h_3 => exact escapes '0' rfl (by decide)
  case h_4 => exact escapes 't' rfl (by decide)
  case h_5 => exact escapes 'n' rfl (by decide)
  case h_6 => exact escapes 'r' rfl (by decide)
  case h_7 quote backslash _ _ _ _ =>
    split_ifs
    · have stepped : Reading.step .between c = some ([c], .between) := by
        rw [Reading.step, if_neg backslash]
      exact unquoteFrom_of_step stepped (by simpa using quote) rest
    · have stepped : Reading.step (.coded c.toNat) '}' = some ([c], .between) := by
        rw [Reading.step, if_pos rfl, Char.ofNat_toNat]
      rw [List.cons_append, List.cons_append, List.cons_append, List.append_assoc,
        unquoteFrom_backslash, unquoteFrom_opening, unquoteFrom_hexDigits]
      exact unquoteFrom_of_step stepped (by simp) rest

/-- A quoted text is read back, and the reader stops right after it. -/
theorem unquote_quoteChars (plain : Char → Bool) (text rest : List Char) :
    unquote (quoteChars plain text ++ rest) = some (text, rest) := by
  have inner : unquoteFrom .between (text.flatMap (quoteChar plain) ++ '"' :: rest) =
      some (text, rest) := by
    induction text with
    | nil => rfl
    | cons c text ih =>
      rw [List.flatMap_cons, List.append_assoc, unquoteFrom_quoteChar, ih]
      rfl
  rw [quoteChars, List.cons_append, List.append_assoc]
  exact inner

theorem break_not_mem_hexDigits (n : Nat) : '\n' ∉ hexDigits n := by
  induction n using Nat.strongRecOn with
  | ind n ih =>
    rw [hexDigits, Nat.toDigits_eq_if (by decide)]
    split_ifs with small
    · simp
    · have less : n / 16 < n := by omega
      rw [List.mem_append, not_or]
      exact ⟨ih _ less, by simp⟩

theorem break_not_mem_quoteChars (plain : Char → Bool) (text : List Char) :
    '\n' ∉ quoteChars plain text := by
  have inner : ∀ c ∈ text, '\n' ∉ quoteChar plain c := by
    intro c _
    unfold quoteChar
    split
    case h_7 other _ =>
      split_ifs
      · simpa using Ne.symm other
      · simp [break_not_mem_hexDigits]
    all_goals decide
  simpa [quoteChars] using inner

end Tangle.Text
