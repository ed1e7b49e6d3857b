import Tangle.Text.Extender
import Tangle.Text.Unseen

/-!
Quoted text. A quote and a backslash get a backslash, four controls have a letter of their own, and
a character that is not plain is written by its code point, so that a quoted text stands on one
line and can be read back.
-/

namespace Tangle.Text

def hexDigits (n : Nat) : List Char := Nat.toDigits 16 n

/-- A character inside quotes, where `plain` characters stand for themselves. -/
def quoteChar (plain : Char → Bool) (c : Char) : List Char :=
  match c with
  | '"' => ['\\', '"']
  | '\\' => ['\\', '\\']
  | '\x00' => ['\\', '0']
  | '\t' => ['\\', 't']
  | '\n' => ['\\', 'n']
  | '\r' => ['\\', 'r']
  | c => if plain c then [c] else '\\' :: 'u' :: '{' :: (hexDigits c.toNat ++ ['}'])

def quoteChars (plain : Char → Bool) (text : List Char) : List Char :=
  '"' :: (text.flatMap (quoteChar plain) ++ ['"'])

/-- The characters that are shown as they are and do not lean on the one before. -/
def isPlain (c : Char) : Bool := !isUnseen c && !isExtender c

def quoted (text : String) : String := String.ofList (quoteChars isPlain text.toList)

end Tangle.Text
