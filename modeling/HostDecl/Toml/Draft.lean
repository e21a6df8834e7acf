import HostDecl.Toml.Value

/-!
# Documents under construction

A TOML text builds its table statement by statement, and most of its rules say what a later
statement must not touch. A draft is the table so far with three sets of paths:

- `frozen`: arrays and inline tables, which are written in one piece; nothing is added to them or
  below them;
- `opened`: tables that a header has opened, and tables that dotted keys have made under an
  earlier header; no header opens them again, and no dotted key goes through them;
- `pending`: tables that dotted keys have made under the current header. They become opened when
  the next header comes.

A header for an element of an array of tables starts afresh below its path.
-/

namespace HostDecl

namespace Toml

abbrev Path :=
  List String

/-- Change the table at a path, making the tables on the way that do not exist yet. Through an
array of tables the path goes on in its last element, if arrays may be entered at all. -/
def Table.modifyAt? (throughArrays : Bool) (change : Table → Option Table) :
    Path → Table → Option Table
  | [], t => change t
  | key :: path, t =>
    match t.get? key with
    | none => do
      let inner ← modifyAt? throughArrays change path []
      pure (t ++ [(key, .table inner)])
    | some (.table entries) => do
      let inner ← modifyAt? throughArrays change path entries
      pure (t.replace key (.table inner))
    | some (.array items) =>
      match throughArrays, items.getLast? with
      | true, some (.table entries) => do
        let inner ← modifyAt? throughArrays change path entries
        pure (t.replace key (.array (items.dropLast ++ [.table inner])))
      | _, _ => none
    | some _ => none

structure Draft where
  root : Table := []
  frozen : List Path := []
  opened : List Path := []
  pending : List Path := []

namespace Draft

/-- The path leads to or into something that was written in one piece. -/
def isFrozen (d : Draft) (path : Path) : Bool :=
  d.frozen.any fun p => p.isPrefixOf path

def isOpened (d : Draft) (path : Path) : Bool :=
  d.opened.contains path

/-- The draft at the next header. -/
def settle (d : Draft) : Draft :=
  { d with opened := d.pending ++ d.opened, pending := [] }

/-- The draft without what is known of a path and the paths below it. -/
def forget (d : Draft) (path : Path) : Draft :=
  { d with
    frozen := d.frozen.filter fun p => !path.isPrefixOf p
    opened := d.opened.filter fun p => !path.isPrefixOf p }

/-- Open a table by its header. -/
def openTable? (d : Draft) (path : Path) : Option Draft := do
  let d := d.settle
  if d.isOpened path || d.isFrozen path then
    none
  else
    let root ← d.root.modifyAt? true some path
    pure { d with root, opened := path :: d.opened }

/-- One more element in the array of tables under a key. -/
def appendElement? (key : String) (t : Table) : Option Table :=
  match t.get? key with
  | none => some (t ++ [(key, .array [.table []])])
  | some (.array items) => some (t.replace key (.array (items ++ [.table []])))
  | some _ => none

/-- Open a new element of an array of tables by its header. -/
def openElement? (d : Draft) (path : Path) : Option Draft := do
  let d := d.settle
  if d.isFrozen path then
    none
  else
    let key ← path.getLast?
    let root ← d.root.modifyAt? true (appendElement? key) path.dropLast
    let d := d.forget path
    pure { d with root, opened := path :: d.opened }

/-- The tables that a dotted key goes through, from the outermost to the innermost. -/
def between (header key : Path) : List Path :=
  (List.range (key.length - 1)).map fun n => header ++ key.take (n + 1)

/-- Add a value under a dotted key below the current header. -/
def assign? (d : Draft) (header key : Path) (value : Value) : Option Draft := do
  let through := between header key
  if through.any d.isOpened || d.isFrozen (header ++ key.dropLast) then
    none
  else
    let last ← key.getLast?
    let root ← d.root.modifyAt? true (fun t => t.insert? last value) (header ++ key.dropLast)
    pure { d with
      root
      frozen := if value.isClosed then (header ++ key) :: d.frozen else d.frozen
      pending := through ++ d.pending }

/-- Add a value under a dotted key of an inline table. -/
def assignInline? (d : Draft) (key : Path) (value : Value) : Option Draft := do
  if d.isFrozen key then
    none
  else
    let last ← key.getLast?
    let root ← d.root.modifyAt? false (fun t => t.insert? last value) key.dropLast
    pure { d with
      root
      frozen := if value.isClosed then key :: d.frozen else d.frozen }

end Draft

end Toml

end HostDecl
