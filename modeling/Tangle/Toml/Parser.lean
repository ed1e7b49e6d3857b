import Tangle.Toml.Quoted

/-!
Reading TOML 1.0. Arrays and inline tables nest, so their readers take a bound on the steps, for
which the length of the text stands in.
-/

namespace Tangle.Toml

def skipSpace (text : List Char) : List Char := text.dropWhile isSpace

def skipComment : List Char → List Char
  | '#' :: rest => rest.dropWhile isShown
  | text => text

def lineEnd? (text : List Char) : Option (List Char) :=
  match skipComment (skipSpace text) with
  | [] => some []
  | '\n' :: rest => some rest
  | '\r' :: '\n' :: rest => some rest
  | _ => none

def skipLines : Nat → List Char → List Char
  | 0, text => text
  | steps + 1, text =>
    match skipComment (skipSpace text) with
    | '\n' :: rest => skipLines steps rest
    | '\r' :: '\n' :: rest => skipLines steps rest
    | rest => rest

def isBareKeyChar (c : Char) : Bool := c.isAlphanum || c == '_' || c == '-'

def simpleKey? : List Char → Option (String × List Char)
  | '"' :: rest => (basic rest).map fun (name, rest) => (String.ofList name, rest)
  | '\'' :: rest => (literal rest).map fun (name, rest) => (String.ofList name, rest)
  | text =>
    match text.takeWhile isBareKeyChar with
    | [] => none
    | name => some (String.ofList name, text.drop name.length)

def key? : Nat → List Char → Option (Key × List Char)
  | 0, _ => none
  | steps + 1, text => do
    let (name, rest) ← simpleKey? text
    match skipSpace rest with
    | '.' :: rest =>
      let (names, rest) ← key? steps (skipSpace rest)
      return (name :: names, rest)
    | _ => return ([name], rest)

mutual

def value? : Nat → List Char → Option (Value × List Char)
  | 0, _ => none
  | steps + 1, text =>
    match string? text with
    | some reading => reading.map fun (content, rest) => (.string (String.ofList content), rest)
    | none =>
      match text with
      | '[' :: rest => do
        let (items, rest) ← items? steps rest
        return (.array items, rest)
      | '{' :: rest =>
        match skipSpace rest with
        | '}' :: rest => some (.table .inline [], rest)
        | rest => do
          let (entries, rest) ← entries? steps [] rest
          return (.table .inline entries, rest)
      | _ =>
        let (word, rest) := splitWord text
        (scalar? word).map (·, rest)

def items? : Nat → List Char → Option (List Value × List Char)
  | 0, _ => none
  | steps + 1, text =>
    match skipLines text.length text with
    | ']' :: rest => some ([], rest)
    | text => do
      let (item, rest) ← value? steps text
      match skipLines rest.length rest with
      | ',' :: rest =>
        let (items, rest) ← items? steps rest
        return (item :: items, rest)
      | ']' :: rest => return ([item], rest)
      | _ => none

/-- The rest of an inline table with at least one pair to come, after those read already. -/
def entries? : Nat → Table → List Char → Option (Table × List Char)
  | 0, _, _ => none
  | steps + 1, table, text => do
    let (key, rest) ← key? text.length text
    let rest ← expect? '=' (skipSpace rest)
    let (value, rest) ← value? steps (skipSpace rest)
    let table ← Table.insert? value key table
    match skipSpace rest with
    | ',' :: rest => entries? steps table (skipSpace rest)
    | '}' :: rest => return (table, rest)
    | _ => none

end

def header? (text : List Char) : Option (Statement × List Char) :=
  match text with
  | '[' :: '[' :: rest => do
    let (key, rest) ← key? text.length (skipSpace rest)
    let rest ← expect? ']' (skipSpace rest) >>= expect? ']'
    return (.element key, ← lineEnd? rest)
  | '[' :: rest => do
    let (key, rest) ← key? text.length (skipSpace rest)
    let rest ← expect? ']' (skipSpace rest)
    return (.table key, ← lineEnd? rest)
  | _ => none

def pair? (text : List Char) : Option (Statement × List Char) := do
  let (key, rest) ← key? text.length text
  let rest ← expect? '=' (skipSpace rest)
  let (value, rest) ← value? (2 * text.length) (skipSpace rest)
  return (.pair key value, ← lineEnd? rest)

def statements? : Nat → List Char → Option (List Statement)
  | 0, _ => none
  | steps + 1, text =>
    match skipLines text.length text with
    | [] => some []
    | text => do
      let (statement, rest) ← (header? text).or (pair? text)
      return statement :: (← statements? steps rest)

/-- A byte order mark may stand before the text. -/
def skipMark : List Char → List Char
  | '\uFEFF' :: rest => rest
  | text => text

def parse? (text : String) : Option Table :=
  let chars := skipMark text.toList
  statements? (chars.length + 1) chars >>= Table.ofStatements?

end Tangle.Toml
