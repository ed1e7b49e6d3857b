/-!
TOML values and how statements build up tables. A table remembers how it came about, since that
decides whether a later statement may add to it.
-/

namespace Tangle.Toml

inductive Origin where
  /-- Named on the way to a table in a header. -/
  | implied
  /-- Opened by a header of its own. -/
  | header
  /-- Named on the way to a value by a dotted key. -/
  | dotted
  /-- Written out between braces. -/
  | inline
  deriving DecidableEq, Repr

/-- Numbers with a point and dates are kept as they are written. -/
inductive Value where
  | string (text : String)
  | integer (value : Int)
  | float (text : String)
  | boolean (value : Bool)
  | dateTime (text : String)
  | array (items : List Value)
  | table (origin : Origin) (entries : List (String × Value))
  /-- The tables of an array opened by headers, latest first. -/
  | tables (elements : List (List (String × Value)))

abbrev Table := List (String × Value)

abbrev Key := List String

namespace Table

def set (table : Table) (name : String) (value : Value) : Table :=
  table.map fun (key, old) => if key = name then (key, value) else (key, old)

def add (table : Table) (name : String) (value : Value) : Table := table ++ [(name, value)]

def insert? (value : Value) : Key → Table → Option Table
  | [], _ => none
  | [name], table =>
    match table.lookup name with
    | none => some (add table name value)
    | some _ => none
  | name :: rest, table =>
    match table.lookup name with
    | none => do return add table name (.table .dotted (← insert? value rest []))
    | some (.table origin entries) =>
      if origin = .dotted ∨ origin = .implied then do
        return set table name (.table origin (← insert? value rest entries))
      else none
    | some _ => none

def under (table : Table) (change : Table → Option Table) : Key → Option Table
  | [] => change table
  | name :: rest =>
    match table.lookup name with
    | some (.table origin entries) => do
      return set table name (.table origin (← under entries change rest))
    | some (.tables (latest :: earlier)) => do
      return set table name (.tables ((← under latest change rest) :: earlier))
    | _ => none

/-- Goes to a table as a header does: what is not there comes about on the way. -/
def reach (last : String → Table → Option Table) : Key → Table → Option Table
  | [], _ => none
  | [name], table => last name table
  | name :: rest, table =>
    match table.lookup name with
    | none => do return add table name (.table .implied (← reach last rest []))
    | some (.table .inline _) => none
    | some (.table origin entries) => do
      return set table name (.table origin (← reach last rest entries))
    | some (.tables (latest :: earlier)) => do
      return set table name (.tables ((← reach last rest latest) :: earlier))
    | some _ => none

def openTable (name : String) (table : Table) : Option Table :=
  match table.lookup name with
  | none => some (add table name (.table .header []))
  | some (.table .implied entries) => some (set table name (.table .header entries))
  | some _ => none

def openElement (name : String) (table : Table) : Option Table :=
  match table.lookup name with
  | none => some (add table name (.tables [[]]))
  | some (.tables elements) => some (set table name (.tables ([] :: elements)))
  | some _ => none

end Table

inductive Statement where
  | pair (key : Key) (value : Value)
  | table (key : Key)
  | element (key : Key)

/-- A table being read, and the key of the header that pairs belong to. -/
structure Builder where
  table : Table
  header : Key

def Builder.read (builder : Builder) : Statement → Option Builder
  | .pair key value => do
    return { builder with table := ← builder.table.under (Table.insert? value key) builder.header }
  | .table key => do return ⟨← Table.reach Table.openTable key builder.table, key⟩
  | .element key => do return ⟨← Table.reach Table.openElement key builder.table, key⟩

def Table.ofStatements? (statements : List Statement) : Option Table :=
  (·.table) <$> statements.foldlM Builder.read ⟨[], []⟩

end Tangle.Toml
