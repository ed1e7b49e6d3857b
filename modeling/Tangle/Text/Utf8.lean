/-!
Bytes read as UTF-8. Where they are ill formed, each longest start of a character stands for one
replacement character.
-/

namespace Tangle.Text

def decode? (bytes : List UInt8) : Option String := String.fromUTF8? ⟨bytes.toArray⟩

def encode (text : String) : List UInt8 := text.toUTF8.toList

def replacement : Char := '\uFFFD'

/-- A character begun: the bytes it still owes, the bounds of the next one, its value so far. -/
structure Begun where
  owed : Nat
  least : Nat
  greatest : Nat
  value : Nat

def beginWith (b : Nat) : List Char × Option Begun :=
  if b ≤ 0x7F then ([Char.ofNat b], none)
  else if 0xC2 ≤ b ∧ b ≤ 0xDF then ([], some ⟨1, 0x80, 0xBF, b % 0x20⟩)
  else if b = 0xE0 then ([], some ⟨2, 0xA0, 0xBF, 0⟩)
  else if b = 0xED then ([], some ⟨2, 0x80, 0x9F, b % 0x10⟩)
  else if 0xE1 ≤ b ∧ b ≤ 0xEF then ([], some ⟨2, 0x80, 0xBF, b % 0x10⟩)
  else if b = 0xF0 then ([], some ⟨3, 0x90, 0xBF, 0⟩)
  else if b = 0xF4 then ([], some ⟨3, 0x80, 0x8F, b % 0x08⟩)
  else if 0xF1 ≤ b ∧ b ≤ 0xF3 then ([], some ⟨3, 0x80, 0xBF, b % 0x08⟩)
  else ([replacement], none)

/-- The next byte: one that does not continue what was begun ends it and begins anew. -/
def readByte (begun : Option Begun) (b : Nat) : List Char × Option Begun :=
  match begun with
  | none => beginWith b
  | some ⟨owed, least, greatest, value⟩ =>
    if least ≤ b ∧ b ≤ greatest then
      let value := value * 0x40 + b % 0x40
      if owed = 1 then ([Char.ofNat value], none) else ([], some ⟨owed - 1, 0x80, 0xBF, value⟩)
    else
      let (done, begun) := beginWith b
      (replacement :: done, begun)

def readBytes : Option Begun → List UInt8 → List Char
  | none, [] => []
  | some _, [] => [replacement]
  | begun, b :: bytes =>
    let (done, begun) := readByte begun b.toNat
    done ++ readBytes begun bytes

def lossy (bytes : List UInt8) : String := String.ofList (readBytes none bytes)

end Tangle.Text
