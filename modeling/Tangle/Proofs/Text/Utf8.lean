import Mathlib.Tactic.SplitIfs
import Tangle.Text.Utf8

/-!
Text as bytes and back. The strict reader takes the bytes of texts only (`decode?_eq_some_iff`). The
lenient one gives a text back from its bytes (`lossy_encode`): each form that a character is written
in, of one to four bytes, takes the reader from the start through the bounds that it sets to the
same character. A byte below `0x80` is written for its own character only, and read as nothing else,
so a text can be cut at a dot among its bytes, and has a slash exactly where its bytes have one.
-/

namespace Tangle.Text

theorem toList_loop (bytes : ByteArray) (i : Nat) (taken : List UInt8) :
    ByteArray.toList.loop bytes i taken = taken.reverse ++ bytes.data.toList.drop i := by
  fun_induction ByteArray.toList.loop bytes i taken with
  | case1 i taken more ih =>
    have inside : i < bytes.data.toList.length := more
    have got : bytes.get! i = bytes.data.toList[i] := getElem!_pos bytes.data i more
    rw [ih, List.reverse_cons, List.append_assoc, List.drop_eq_getElem_cons inside, got]
    rfl
  | case2 i taken done =>
    have past : bytes.data.toList.length ≤ i := Nat.le_of_not_lt done
    rw [List.drop_eq_nil_of_le past, List.append_nil]

theorem encode_eq_data (text : String) : encode text = text.toByteArray.data.toList := by
  rw [encode, String.toUTF8_eq_toByteArray, ByteArray.toList, toList_loop]
  rfl

theorem encode_ofList (cs : List Char) :
    encode (String.ofList cs) = cs.flatMap String.utf8EncodeChar := by
  rw [encode_eq_data, String.toByteArray_ofList, List.utf8Encode, List.data_toByteArray]

theorem encode_append (left right : String) :
    encode (left ++ right) = encode left ++ encode right := by
  rw [encode_eq_data, encode_eq_data, encode_eq_data, String.toByteArray_append,
    ByteArray.data_append, Array.toList_append]

/-- The strict reader takes the bytes of a text and no others. -/
theorem decode?_eq_some_iff {bytes : List UInt8} {text : String} :
    decode? bytes = some text ↔ bytes = encode text := by
  rw [encode_eq_data, decode?, String.fromUTF8?]
  constructor
  · intro decoded
    split_ifs at decoded with valid
    rw [← Option.some.inj decoded]
    rfl
  · rintro rfl
    exact dif_pos text.isValidUTF8

section Reading

variable {begun next : Begun} {state : Option Begun} {n : Nat} {c : Char}

theorem readBytes_of_begun (small : n < 256) (read : readByte state n = ([], some next))
    (rest : List UInt8) :
    readBytes state (UInt8.ofNat n :: rest) = readBytes (some next) rest := by
  rw [readBytes, UInt8.toNat_ofNat_of_lt' small, read]
  rfl

theorem readBytes_of_done (small : n < 256) (read : readByte state n = ([c], none))
    (rest : List UInt8) :
    readBytes state (UInt8.ofNat n :: rest) = c :: readBytes none rest := by
  rw [readBytes, UInt8.toNat_ofNat_of_lt' small, read]
  rfl

theorem readByte_of_owed (more : begun.owed ≠ 1) (bounds : begun.least ≤ n ∧ n ≤ begun.greatest) :
    readByte (some begun) n =
      ([], some ⟨begun.owed - 1, 0x80, 0xBF, begun.value * 0x40 + n % 0x40⟩) := by
  simp only [readByte, if_pos bounds, if_neg more]

theorem readByte_of_last (last : begun.owed = 1) (bounds : begun.least ≤ n ∧ n ≤ begun.greatest) :
    readByte (some begun) n = ([Char.ofNat (begun.value * 0x40 + n % 0x40)], none) := by
  simp only [readByte, if_pos bounds, if_pos last]

end Reading

section Forms

variable {first second third last : Nat} (rest : List UInt8)

theorem readBytes_of_two (lead : 0xC2 ≤ first ∧ first ≤ 0xDF) (ends : 0x80 ≤ last ∧ last ≤ 0xBF) :
    readBytes none (UInt8.ofNat first :: UInt8.ofNat last :: rest) =
      Char.ofNat (first % 0x20 * 0x40 + last % 0x40) :: readBytes none rest := by
  have begins : readByte none first = ([], some ⟨1, 0x80, 0xBF, first % 0x20⟩) := by
    rw [readByte, beginWith, if_neg (by omega), if_pos lead]
  rw [readBytes_of_begun (by omega) begins, readBytes_of_done (by omega) (readByte_of_last rfl ends)]

theorem readBytes_of_three (lead : 0xE0 ≤ first ∧ first ≤ 0xEF)
    (middle : 0x80 ≤ second ∧ second ≤ 0xBF) (long : first = 0xE0 → 0xA0 ≤ second)
    (scalar : first = 0xED → second ≤ 0x9F) (ends : 0x80 ≤ last ∧ last ≤ 0xBF) :
    readBytes none (UInt8.ofNat first :: UInt8.ofNat second :: UInt8.ofNat last :: rest) =
      Char.ofNat ((first % 0x10 * 0x40 + second % 0x40) * 0x40 + last % 0x40) ::
        readBytes none rest := by
  have begins : ∃ least greatest, readByte none first =
      ([], some ⟨2, least, greatest, first % 0x10⟩) ∧ least ≤ second ∧ second ≤ greatest := by
    rw [readByte, beginWith, if_neg (by omega), if_neg (by omega)]
    split_ifs with low high inner
    · exact ⟨0xA0, 0xBF, by rw [low], long low, middle.2⟩
    · exact ⟨0x80, 0x9F, rfl, middle.1, scalar high⟩
    · exact ⟨0x80, 0xBF, rfl, middle⟩
    all_goals omega
  obtain ⟨least, greatest, begins, bounds⟩ := begins
  rw [readBytes_of_begun (by omega) begins,
    readBytes_of_begun (by omega) (readByte_of_owed (by simp) bounds),
    readBytes_of_done (by omega) (readByte_of_last rfl ends)]

/-- The second of four bytes is bounded so that no shorter form and nothing beyond is written. -/
theorem readBytes_of_four (lead : 0xF0 ≤ first ∧ first ≤ 0xF4)
    (middle : 0x80 ≤ second ∧ second ≤ 0xBF) (long : first = 0xF0 → 0x90 ≤ second)
    (scalar : first = 0xF4 → second ≤ 0x8F) (inner : 0x80 ≤ third ∧ third ≤ 0xBF)
    (ends : 0x80 ≤ last ∧ last ≤ 0xBF) :
    readBytes none (UInt8.ofNat first :: UInt8.ofNat second :: UInt8.ofNat third ::
        UInt8.ofNat last :: rest) =
      Char.ofNat (((first % 0x08 * 0x40 + second % 0x40) * 0x40 + third % 0x40) * 0x40 +
        last % 0x40) :: readBytes none rest := by
  have begins : ∃ least greatest, readByte none first =
      ([], some ⟨3, least, greatest, first % 0x08⟩) ∧ least ≤ second ∧ second ≤ greatest := by
    rw [readByte, beginWith, if_neg (by omega), if_neg (by omega), if_neg (by omega),
      if_neg (by omega), if_neg (by omega)]
    split_ifs with low high
    · exact ⟨0x90, 0xBF, by rw [low], long low, middle.2⟩
    · exact ⟨0x80, 0x8F, rfl, middle.1, scalar high⟩
    · exact ⟨0x80, 0xBF, rfl, middle⟩
    · omega
  obtain ⟨least, greatest, begins, bounds⟩ := begins
  rw [readBytes_of_begun (by omega) begins,
    readBytes_of_begun (by omega) (readByte_of_owed (by simp) bounds),
    readBytes_of_begun (by omega) (readByte_of_owed (by simp) inner),
    readBytes_of_done (by omega) (readByte_of_last rfl ends)]

theorem readBytes_utf8EncodeChar (c : Char) :
    readBytes none (String.utf8EncodeChar c ++ rest) = c :: readBytes none rest := by
  have whole : Char.ofNat c.val.toNat = c := Char.ofNat_toNat c
  have valid : c.val.toNat < 0xD800 ∨ 0xDFFF < c.val.toNat ∧ c.val.toNat < 0x110000 := c.valid
  unfold String.utf8EncodeChar
  generalize c.val.toNat = v at whole valid
  have sums : ∀ value, value = v → Char.ofNat value = c := by
    rintro value rfl
    exact whole
  simp only
  split_ifs with one two three
  · apply readBytes_of_done (by omega)
    rw [readByte, beginWith, if_pos one, whole]
  · refine (readBytes_of_two rest (by omega) (by omega)).trans ?_
    rw [sums _ (by omega)]
  · refine (readBytes_of_three rest (by omega) (by omega) (by omega) (by omega) (by omega)).trans ?_
    rw [sums _ (by omega)]
  · refine (readBytes_of_four rest (by omega) (by omega) (by omega) (by omega) (by omega)
      (by omega)).trans ?_
    rw [sums _ (by omega)]

end Forms

theorem lossy_encode (text : String) : lossy (encode text) = text := by
  have read : ∀ cs : List Char, readBytes none (cs.flatMap String.utf8EncodeChar) = cs := by
    intro cs
    induction cs with
    | nil => rfl
    | cons c cs ih => rw [List.flatMap_cons, readBytes_utf8EncodeChar, ih]
  have bytes := encode_ofList text.toList
  rw [String.ofList_toList] at bytes
  rw [bytes, lossy, read, String.ofList_toList]

theorem encode_injective : Function.Injective encode := Function.LeftInverse.injective lossy_encode

section Ascii

theorem toNat_eq_of_mem_utf8EncodeChar {c : Char} {b : UInt8} (ascii : b.toNat < 0x80)
    (member : b ∈ String.utf8EncodeChar c) : c.toNat = b.toNat := by
  have read : ∀ {n}, n < 256 → b = UInt8.ofNat n → b.toNat = n := by
    rintro n small rfl
    exact UInt8.toNat_ofNat_of_lt' small
  have high : ∀ {n}, n < 256 → 0x80 ≤ n → b ≠ UInt8.ofNat n := by
    intro n small least same
    rw [read small same] at ascii
    omega
  change c.val.toNat = b.toNat
  unfold String.utf8EncodeChar at member
  generalize c.val.toNat = v at member
  simp only at member
  split_ifs at member with one two three <;>
    simp only [List.mem_cons, List.not_mem_nil, or_false] at member
  · exact (read (by omega) member).symm
  · rcases member with same | same <;> exact absurd same (high (by omega) (by omega))
  · rcases member with same | same | same <;> exact absurd same (high (by omega) (by omega))
  · rcases member with same | same | same | same <;>
      exact absurd same (high (by omega) (by omega))

theorem encode_empty : encode "" = [] := encode_ofList []

theorem encode_dot : encode "." = [0x2E] := encode_ofList ['.']

theorem exists_of_flatMap_eq_append {cs : List Char} {before after : List UInt8}
    (bytes : cs.flatMap String.utf8EncodeChar = before ++ 0x2E :: after) :
    ∃ start rest, cs = start ++ '.' :: rest ∧ before = start.flatMap String.utf8EncodeChar ∧
      after = rest.flatMap String.utf8EncodeChar := by
  induction cs generalizing before with
  | nil => simp at bytes
  | cons c cs ih =>
    rw [List.flatMap_cons] at bytes
    by_cases past : (String.utf8EncodeChar c).length ≤ before.length
    · obtain ⟨later, rfl⟩ := List.prefix_of_prefix_length_le ⟨_, bytes⟩ ⟨_, rfl⟩ past
      rw [List.append_assoc, List.append_cancel_left_eq] at bytes
      obtain ⟨start, rest, rfl, same, ends⟩ := ih bytes
      exact ⟨c :: start, rest, rfl, by rw [same, List.flatMap_cons], ends⟩
    · have within : (before ++ [0x2E]).length ≤ (String.utf8EncodeChar c).length := by
        rw [List.length_append, List.length_singleton]
        omega
      rw [List.append_cons] at bytes
      obtain ⟨later, whole⟩ := List.prefix_of_prefix_length_le ⟨_, bytes.symm⟩ ⟨_, rfl⟩ within
      have value : c.toNat = '.'.toNat :=
        toNat_eq_of_mem_utf8EncodeChar (b := 0x2E) (by decide) (by simp [← whole])
      obtain rfl : c = '.' := Char.toNat_inj.mp value
      have alone : String.utf8EncodeChar '.' = [0x2E] := by decide
      rw [alone] at within bytes
      obtain rfl : before = [] := by simpa using within
      exact ⟨[], cs, rfl, rfl, (List.cons.inj bytes).2.symm⟩

/-- A dot among the bytes of a text is a dot of the text, and what stands around it is text too. -/
theorem encode_eq_append_dot_iff {text : String} {before after : List UInt8} :
    encode text = before ++ 0x2E :: after ↔
      ∃ start rest, text = start ++ "." ++ rest ∧ before = encode start ∧ after = encode rest := by
  constructor
  · intro bytes
    rw [← String.ofList_toList (s := text), encode_ofList] at bytes
    obtain ⟨start, rest, parts, same, ends⟩ := exists_of_flatMap_eq_append bytes
    refine ⟨String.ofList start, String.ofList rest, ?_, ?_, ?_⟩
    · simp [← String.toList_inj, parts]
    · rw [encode_ofList, same]
    · rw [encode_ofList, ends]
  · rintro ⟨start, rest, rfl, rfl, rfl⟩
    rw [encode_append, encode_append, encode_dot, List.append_assoc]
    rfl

end Ascii

section Slashes

theorem ofNat_ne_slash {n : Nat} (other : n ≠ 0x2F) : Char.ofNat n ≠ '/' := by
  intro same
  have value := congrArg Char.toNat same
  by_cases valid : n.isValidChar
  · have made : Char.ofNat n = Char.ofNatAux n valid := dif_pos valid
    rw [made] at value
    exact other value
  · have made : Char.ofNat n = '\x00' := dif_neg valid
    rw [made] at value
    exact absurd value (by decide)

def Begun.Wide (begun : Begun) : Prop :=
  0x80 ≤ begun.least ∧ begun.greatest ≤ 0xBF ∧ 2 ≤ begun.value * 0x40 + begun.least % 0x40 ∧
    (begun.owed = 1 → 0x80 ≤ begun.value * 0x40 + begun.least % 0x40)

def SlashFree (read : List Char × Option Begun) : Prop :=
  '/' ∉ read.1 ∧ ∀ begun ∈ read.2, begun.Wide

theorem slashFree_begun {begun : Begun} (wide : begun.Wide) : SlashFree ([], some begun) :=
  ⟨List.not_mem_nil, fun _ same => Option.some.inj same ▸ wide⟩

theorem slashFree_beginWith {b : Nat} (other : b ≠ 0x2F) : SlashFree (beginWith b) := by
  unfold beginWith
  repeat' split
  case isTrue => simpa [SlashFree] using (ofNat_ne_slash other).symm
  case isFalse => simp [SlashFree, replacement]
  all_goals
    apply slashFree_begun
    simp only [Begun.Wide]
    omega

theorem slashFree_readByte {state : Option Begun} {b : Nat} (wide : ∀ begun ∈ state, begun.Wide)
    (other : b ≠ 0x2F) : SlashFree (readByte state b) := by
  have anew := slashFree_beginWith other
  cases state with
  | none => exact anew
  | some begun =>
    obtain ⟨least, greatest, low, whole⟩ := wide begun rfl
    by_cases bounds : begun.least ≤ b ∧ b ≤ begun.greatest
    · by_cases last : begun.owed = 1
      · rw [readByte_of_last last bounds]
        simpa [SlashFree] using (ofNat_ne_slash (by omega)).symm
      · rw [readByte_of_owed last bounds]
        apply slashFree_begun
        simp only [Begun.Wide]
        omega
    · simp only [readByte, if_neg bounds, SlashFree, List.mem_cons, not_or]
      exact ⟨⟨by decide, anew.1⟩, anew.2⟩

theorem slash_not_mem_readBytes {state : Option Begun} {bytes : List UInt8}
    (wide : ∀ begun ∈ state, begun.Wide) (free : 0x2F ∉ bytes) : '/' ∉ readBytes state bytes := by
  induction bytes generalizing state with
  | nil => cases state <;> simp [readBytes, replacement]
  | cons b bytes ih =>
    rw [List.mem_cons, not_or] at free
    have other : b.toNat ≠ 0x2F := fun same => free.1 (UInt8.toNat_inj.mp same.symm)
    obtain ⟨done, next⟩ := slashFree_readByte wide other
    rw [readBytes, List.mem_append, not_or]
    exact ⟨done, ih next free.2⟩

/-- Bytes without a slash are read as text without one, however ill formed they are. -/
theorem slash_not_mem_lossy {bytes : List UInt8} (free : 0x2F ∉ bytes) :
    '/' ∉ (lossy bytes).toList := by
  rw [lossy, String.toList_ofList]
  exact slash_not_mem_readBytes (by simp) free

theorem slash_not_mem_encode {cs : List Char} (free : '/' ∉ cs) :
    0x2F ∉ encode (String.ofList cs) := by
  rw [encode_ofList, List.mem_flatMap]
  rintro ⟨c, member, slash⟩
  have value : c.toNat = '/'.toNat := toNat_eq_of_mem_utf8EncodeChar (by decide) slash
  exact free (Char.toNat_inj.mp value ▸ member)

end Slashes

end Tangle.Text
