import Tangle.Toml.Scalar

/-!
TOML strings. Between double quotes a backslash begins an escape; between single quotes it is
itself. Three quotes begin a string that may go over several lines.
-/

namespace Tangle.Toml

def isShown (c : Char) : Bool := c == '\t' || (0x20 ≤ c.toNat && c.toNat != 0x7F)

def shortEscape? : Char → Option Char
  | 'b' => some '\x08'
  | 't' => some '\t'
  | 'n' => some '\n'
  | 'f' => some '\x0c'
  | 'r' => some '\r'
  | '"' => some '"'
  | '\\' => some '\\'
  | _ => none

def codePoint? (digits : List Char) : Option Char :=
  let value := valueIn 16 digits
  if digits.all isHexDigit ∧ value.isValidChar then some (Char.ofNat value) else none

abbrev Reading := Option (List Char × List Char)

def Reading.cons (c : Char) (reading : Reading) : Reading :=
  reading.map fun (text, rest) => (c :: text, rest)

def basic : List Char → Reading
  | [] => none
  | '"' :: rest => some ([], rest)
  | '\\' :: 'u' :: a :: b :: c :: d :: rest =>
    (codePoint? [a, b, c, d]).bind fun point => (basic rest).cons point
  | '\\' :: 'U' :: a :: b :: c :: d :: e :: f :: g :: h :: rest =>
    (codePoint? [a, b, c, d, e, f, g, h]).bind fun point => (basic rest).cons point
  | '\\' :: c :: rest => (shortEscape? c).bind fun point => (basic rest).cons point
  | c :: rest => if isShown c && c != '\\' then (basic rest).cons c else none

def literal : List Char → Reading
  | [] => none
  | '\'' :: rest => some ([], rest)
  | c :: rest => if isShown c then (literal rest).cons c else none

def isSpace (c : Char) : Bool := c == ' ' || c == '\t'

def startsLine : List Char → Bool
  | '\n' :: _ => true
  | '\r' :: '\n' :: _ => true
  | _ => false

def dropLineBreak : List Char → List Char
  | '\n' :: rest => rest
  | '\r' :: '\n' :: rest => rest
  | text => text

/--
The rest of a string in three double quotes. Two quotes more may stand before those that end it. A
backslash at the end of a line leaves out the white space up to the next character; `skipping` says
that this is going on.
-/
def basicLines : (skipping : Bool) → List Char → Reading
  | _, [] => none
  | _, '"' :: '"' :: '"' :: '"' :: '"' :: rest => some (['"', '"'], rest)
  | _, '"' :: '"' :: '"' :: '"' :: rest => some (['"'], rest)
  | _, '"' :: '"' :: '"' :: rest => some ([], rest)
  | _, '\\' :: 'u' :: a :: b :: c :: d :: rest =>
    (codePoint? [a, b, c, d]).bind fun point => (basicLines false rest).cons point
  | _, '\\' :: 'U' :: a :: b :: c :: d :: e :: f :: g :: h :: rest =>
    (codePoint? [a, b, c, d, e, f, g, h]).bind fun point => (basicLines false rest).cons point
  | _, '\\' :: c :: rest =>
    if startsLine ((c :: rest).dropWhile isSpace) then basicLines true (c :: rest)
    else (shortEscape? c).bind fun point => (basicLines false rest).cons point
  | skipping, '\r' :: '\n' :: rest =>
    if skipping then basicLines true rest
    else (basicLines false rest).cons '\n' |>.cons '\r'
  | skipping, c :: rest =>
    if skipping && (isSpace c || c == '\n') then basicLines true rest
    else if (isShown c && c != '\\') || c == '\n' then (basicLines false rest).cons c
    else none

def literalLines : List Char → Reading
  | [] => none
  | '\'' :: '\'' :: '\'' :: '\'' :: '\'' :: rest => some (['\'', '\''], rest)
  | '\'' :: '\'' :: '\'' :: '\'' :: rest => some (['\''], rest)
  | '\'' :: '\'' :: '\'' :: rest => some ([], rest)
  | '\r' :: '\n' :: rest => (literalLines rest).cons '\n' |>.cons '\r'
  | c :: rest => if isShown c || c == '\n' then (literalLines rest).cons c else none

def string? : List Char → Option Reading
  | '"' :: '"' :: '"' :: rest => some (basicLines false (dropLineBreak rest))
  | '"' :: rest => some (basic rest)
  | '\'' :: '\'' :: '\'' :: rest => some (literalLines (dropLineBreak rest))
  | '\'' :: rest => some (literal rest)
  | _ => none

end Tangle.Toml
