import HostDecl.Fault
import HostDecl.Interface.Basic
import HostDecl.Toml.Reader

/-!
# Loading an interface description

A description is a TOML table with an optional name and an array of declarations. Loading goes
over the declarations twice: first it reads the name and the kind of each, which gives each of
them its ident, the position in the array; then it reads what they declare, where a type name
stands for the alias, struct or enum of exactly that name anywhere in the description, and
otherwise for an atom. Functions are not types.

The first defect in this order is the one that is reported.
-/

namespace HostDecl

namespace Description

open Toml (Table Value)

/-! ## Headings -/

/-- The kinds of declarations that a description can hold. -/
inductive Kind where
  | aliasOf
  | struct
  | enum
  | function
  deriving DecidableEq, Repr

def Kind.ofText? : String → Option Kind
  | "alias" => some .aliasOf
  | "struct" => some .struct
  | "enum" => some .enum
  | "function" => some .function
  | _ => none

/-- A declaration whose name and kind have been read. -/
structure Heading where
  index : Nat
  name : String
  kind : Kind
  table : Table

/-- The ident of a declaration is its position. -/
def Heading.id (h : Heading) : Ident :=
  ⟨h.index⟩

/-- Text under a key, which must not be empty. -/
def requireText (path : String) (index : Nat) (t : Table) (key : String) :
    Except Fault String :=
  match t.get? key with
  | some (.text content) =>
    if content.isEmpty then .error (.malformedModule path (.missingText index key))
    else .ok content
  | _ => .error (.malformedModule path (.missingText index key))

def readHeading (path : String) (index : Nat) (entry : Value) : Except Fault Heading := do
  match entry with
  | .table table =>
    let name ← requireText path index table "name"
    let kindText ← requireText path index table "kind"
    match Kind.ofText? kindText with
    | some kind => pure { index, name, kind, table }
    | none => throw (.malformedModule path (.unknownKind name kindText))
  | _ => throw (.malformedModule path (.notTable index))

/-- The headings of the remaining entries, after some whose names are taken. -/
def readHeadings (path : String) : Nat → List String → List Value →
    Except Fault (List Heading)
  | _, _, [] => pure []
  | index, taken, entry :: entries => do
    let heading ← readHeading path index entry
    if heading.name ∈ taken then
      throw (.redeclared heading.name)
    else
      let rest ← readHeadings path (index + 1) (heading.name :: taken) entries
      pure (heading :: rest)

/-! ## Payloads -/

/-- The idents that type names stand for. -/
abbrev TypeNames :=
  List (String × Ident)

def typeNames (headings : List Heading) : TypeNames :=
  (headings.filter fun h => h.kind ≠ .function).map fun h => (h.name, h.id)

/-- The type that a declaration asks for. -/
def readType (path : String) (types : TypeNames) (owner : String) (value : Option Value) :
    Except Fault TypeRef :=
  match value with
  | some (.text name) =>
    match types.lookup name with
    | some id => .ok (.decl id)
    | none =>
      match Atom.ofText? name with
      | some a => .ok (.atom a)
      | none => .error (.unknownType name owner)
  | _ => .error (.malformedModule path (.typeNotText owner))

/-- The tables in an array under a key; a missing key stands for none. -/
def readTables (path : String) (h : Heading) (key : String) : Except Fault (List Table) :=
  let fault := Fault.malformedModule path (.fieldsNotTables key h.name)
  match h.table.get? key with
  | none => .ok []
  | some (.array items) =>
    match items.mapM Value.asTable? with
    | some tables => .ok tables
    | none => .error fault
  | some _ => .error fault

def readField (path : String) (types : TypeNames) (h : Heading) (t : Table) :
    Except Fault Field := do
  let name ← requireText path h.index t "name"
  let type ← readType path types h.name (t.get? "type")
  pure { name, type }

/-- Members of a struct, or arguments of a function. -/
def readFields (path : String) (types : TypeNames) (h : Heading) (key : String) :
    Except Fault (List Field) := do
  let tables ← readTables path h key
  tables.mapM (readField path types h)

def readVariants (path : String) (h : Heading) : Except Fault (List String) :=
  let items? := match h.table.get? "variants" with
    | none => some []
    | some value => value.asArray?
  match items?.bind fun items => items.mapM Value.asText? with
  | none => .error (.malformedModule path (.variantsNotText h.name))
  | some [] => .error (.malformedModule path (.noVariants h.name))
  | some variants => .ok variants

def readEntity (path : String) (types : TypeNames) (h : Heading) : Except Fault Entity := do
  match h.kind with
  | .aliasOf => pure (.aliasOf (← readType path types h.name (h.table.get? "to")))
  | .struct => pure (.struct (← readFields path types h "members"))
  | .enum => pure (.enum (← readVariants path h))
  | .function =>
    let args ← readFields path types h "args"
    let result ← match h.table.get? "ret" with
      | none => pure none
      | some value => some <$> readType path types h.name (some value)
    pure (.function args result)

def readDecl (path : String) (types : TypeNames) (h : Heading) : Except Fault Decl := do
  let entity ← readEntity path types h
  pure { id := h.id, name := h.name, entity }

/-! ## Descriptions -/

def readName (path defaultName : String) (t : Table) : Except Fault String :=
  match t.get? "name" with
  | none => .ok defaultName
  | some (.text name) => .ok name
  | some _ => .error (.malformedModule path .nameNotText)

def readEntries (path : String) (t : Table) : Except Fault (List Value) :=
  match t.get? "declaration" with
  | none => .ok []
  | some (.array entries) => .ok entries
  | some _ => .error (.malformedModule path .declarationsNotArray)

end Description

namespace Interface

open Description

/-- The interface that a table describes. -/
def ofTable (path defaultName : String) (t : Toml.Table) : Except Fault Interface := do
  let name ← readName path defaultName t
  let entries ← readEntries path t
  let headings ← readHeadings path 0 [] entries
  let decls ← headings.mapM (readDecl path (typeNames headings))
  pure { name, decls }

/-- The interface that a text describes. -/
def ofText (path defaultName text : String) : Except Fault Interface :=
  match Toml.parse text with
  | .ok t => ofTable path defaultName t
  | .error .malformed => .error (.malformedModule path .syntaxError)
  | .error .longInteger => .error .longInteger

end Interface

end HostDecl
