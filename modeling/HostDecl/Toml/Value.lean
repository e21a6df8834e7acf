/-!
# Values of TOML

What a TOML text holds: text, arrays and tables. Numbers, truth values, dates and times are kept
as they are written, since descriptions and settings hold none. A table keeps its entries in the
order of the text.
-/

namespace HostDecl

namespace Toml

inductive Value where
  | text (content : String)
  | plain (source : String)
  | array (items : List Value)
  | table (entries : List (String × Value))
  deriving Inhabited

abbrev Table :=
  List (String × Value)

namespace Value

def asText? : Value → Option String
  | .text content => some content
  | _ => none

def asArray? : Value → Option (List Value)
  | .array items => some items
  | _ => none

def asTable? : Value → Option Table
  | .table entries => some entries
  | _ => none

/-- The value was written as a unit that nothing can be added to. -/
def isClosed : Value → Bool
  | .array _ | .table _ => true
  | .text _ | .plain _ => false

end Value

namespace Table

def get? (t : Table) (key : String) : Option Value :=
  t.lookup key

/-- The table with another value under a key that it has. -/
def replace (t : Table) (key : String) (value : Value) : Table :=
  t.map fun (k, v) => if k = key then (k, value) else (k, v)

/-- The table with one more entry, if its key is new. -/
def insert? (t : Table) (key : String) (value : Value) : Option Table :=
  match t.get? key with
  | none => some (t ++ [(key, value)])
  | some _ => none

end Table

end Toml

end HostDecl
