import Tangle.Text.Pieces
import Tangle.Toml.Value

/-!
TOML values that are written without quotes or brackets: booleans, numbers, dates and times.
-/

namespace Tangle.Toml

def isGrouped (isDigit : Char → Bool) (text : List Char) : Bool :=
  (Text.pieces '_' text).all fun group => group != [] && group.all isDigit

def isDecimal (text : List Char) : Bool :=
  isGrouped Char.isDigit text && (text.length == 1 || text.head? != some '0')

def digitValue (c : Char) : Nat :=
  if c.isDigit then c.toNat - '0'.toNat else c.toLower.toNat - 'a'.toNat + 10

def valueIn (base : Nat) (text : List Char) : Nat :=
  (text.filter (· != '_')).foldl (fun value c => value * base + digitValue c) 0

def isHexDigit (c : Char) : Bool :=
  c.isDigit || ('a' ≤ c && c ≤ 'f') || ('A' ≤ c && c ≤ 'F')

def splitSign : List Char → Bool × List Char
  | '-' :: rest => (true, rest)
  | '+' :: rest => (false, rest)
  | text => (false, text)

def unsigned? : List Char → Option Nat
  | '0' :: 'x' :: digits => if isGrouped isHexDigit digits then some (valueIn 16 digits) else none
  | '0' :: 'o' :: digits =>
    if isGrouped (fun c => '0' ≤ c && c ≤ '7') digits then some (valueIn 8 digits) else none
  | '0' :: 'b' :: digits =>
    if isGrouped (fun c => c == '0' || c == '1') digits then some (valueIn 2 digits) else none
  | _ => none

/-- The first integer that has no place in 64 bits with a sign. -/
def integerBound : Int := 0x8000000000000000

def integer? (text : List Char) : Option Int :=
  let (negative, digits) := splitSign text
  let value := match unsigned? text with
    | some value => some (value : Int)
    | none =>
      if isDecimal digits then
        let value : Int := valueIn 10 digits
        some (if negative then -value else value)
      else none
  value.filter fun value => -integerBound ≤ value && value < integerBound

def isExponent : List Char → Bool
  | c :: rest => (c == 'e' || c == 'E') && isGrouped Char.isDigit (splitSign rest).2
  | [] => false

def isFraction (text : List Char) : Bool :=
  match text with
  | '.' :: rest =>
    let digits := rest.takeWhile fun c => c.isDigit || c == '_'
    let exponent := rest.drop digits.length
    isGrouped Char.isDigit digits && (exponent == [] || isExponent exponent)
  | _ => false

def isFloat (text : List Char) : Bool :=
  let (_, body) := splitSign text
  let whole := body.takeWhile fun c => c.isDigit || c == '_'
  let rest := body.drop whole.length
  body == "inf".toList || body == "nan".toList ||
    (isDecimal whole && (isFraction rest || isExponent rest))

def digits? (count : Nat) (text : List Char) : Option (Nat × List Char) :=
  let digits := text.take count
  if digits.length = count ∧ digits.all Char.isDigit then
    some (valueIn 10 digits, text.drop count)
  else none

def expect? (c : Char) : List Char → Option (List Char)
  | d :: rest => if c = d then some rest else none
  | [] => none

def isLeapYear (year : Nat) : Bool := (year % 4 == 0 && year % 100 != 0) || year % 400 == 0

def daysIn (year month : Nat) : Nat :=
  if month = 2 then (if isLeapYear year then 29 else 28)
  else if [4, 6, 9, 11].contains month then 30 else 31

def date? (text : List Char) : Option (List Char) := do
  let (year, text) ← digits? 4 text
  let (month, text) ← digits? 2 (← expect? '-' text)
  let (day, text) ← digits? 2 (← expect? '-' text)
  if 1 ≤ month ∧ month ≤ 12 ∧ 1 ≤ day ∧ day ≤ daysIn year month then some text else none

def time? (text : List Char) : Option (List Char) := do
  let (hour, text) ← digits? 2 text
  let (minute, text) ← digits? 2 (← expect? ':' text)
  let (second, text) ← digits? 2 (← expect? ':' text)
  if 23 < hour ∨ 59 < minute ∨ 60 < second then none
  else match text with
    | '.' :: c :: rest => if c.isDigit then some (rest.dropWhile Char.isDigit) else none
    | _ => some text

def isOffset (text : List Char) : Bool :=
  match text with
  | [c] => c == 'Z' || c == 'z'
  | sign :: rest =>
    (sign == '+' || sign == '-') && match digits? 2 rest with
      | some (hour, rest) =>
        match (expect? ':' rest).bind (digits? 2) with
        | some (minute, rest) => hour ≤ 23 && minute ≤ 59 && rest == []
        | none => false
      | none => false
  | [] => false

def isDateTime (text : List Char) : Bool :=
  match date? text with
  | some [] => true
  | some (c :: rest) =>
    (c == 'T' || c == 't' || c == ' ') && match time? rest with
      | some rest => rest == [] || isOffset rest
      | none => false
  | none => time? text == some []

def scalar? (text : List Char) : Option Value :=
  if text = "true".toList then some (.boolean true)
  else if text = "false".toList then some (.boolean false)
  else match integer? text with
    | some value => some (.integer value)
    | none =>
      if isFloat text then some (.float (String.ofList text))
      else if isDateTime text then some (.dateTime (String.ofList text))
      else none

def isWordChar (c : Char) : Bool :=
  c.isAlphanum || c == '+' || c == '-' || c == '_' || c == '.' || c == ':'

/-- A word, which goes on after a date and a space with a time of day. -/
def splitWord (text : List Char) : List Char × List Char :=
  let word := text.takeWhile isWordChar
  let rest := text.drop word.length
  match rest with
  | ' ' :: c :: _ =>
    if date? word == some [] && c.isDigit then
      let time := (rest.drop 1).takeWhile isWordChar
      (word ++ ' ' :: time, rest.drop (time.length + 1))
    else (word, rest)
  | _ => (word, rest)

end Tangle.Toml
