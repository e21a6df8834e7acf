import HostDecl.Atom
import HostDecl.Text.Display

/-!
# Interfaces

An interface is a named sequence of declarations: aliases, structs, enums and functions, each
with an ident and a name. Types refer to atoms or, by ident, to declarations. A declaration is known
by its ident, whatever it is named, and so is everything that is remembered about it. The order of
the declarations is the order in which they are emitted; whether it respects the references between
them is for the reader of an interface to find out.

Where several declarations carry one ident, the last one counts (`Interface.get?`); where several
carry one name, the first one does (`Interface.getByName?`).

Each entity has a one-line description in the notation of interfaces: `alias f64`,
`struct { x: f64, y: f64 }`, `enum { red, green }`, `fn(a: point) -> f64`. References appear
under their declared names (`Interface.describe`).
-/

namespace HostDecl

structure Ident where
  index : Int
  deriving DecidableEq, Repr

/-- How an ident is written where it has no name: `#3`. -/
def Ident.text (id : Ident) : String :=
  "#" ++ toString id.index

/-- What a type refers to. A foreign reference is text that refers to nothing. -/
inductive TypeRef where
  | atom (a : Atom)
  | decl (id : Ident)
  | foreign (text : String)
  deriving DecidableEq, Repr

/-- A member of a struct or an argument of a function. -/
structure Field where
  name : String
  type : TypeRef
  deriving DecidableEq, Repr

/-- What a declaration declares. A foreign entity is text that no host can emit. -/
inductive Entity where
  | aliasOf (target : TypeRef)
  | struct (members : List Field)
  | enum (variants : List String)
  | function (args : List Field) (result : Option TypeRef)
  | foreign (text : String)
  deriving DecidableEq, Repr

structure Decl where
  id : Ident
  name : String
  entity : Entity
  deriving DecidableEq, Repr

structure Interface where
  name : String
  decls : List Decl
  deriving DecidableEq, Repr

namespace Entity

/-- The kind of an entity, as messages name it. -/
def kind : Entity → String
  | .aliasOf _ => "alias"
  | .struct _ => "struct"
  | .enum _ => "enum"
  | .function .. => "function"
  | .foreign _ => "str"

def isFunction : Entity → Bool
  | .function .. => true
  | _ => false

end Entity

namespace Interface

/-- The declaration that an ident stands for. -/
def get? (i : Interface) (id : Ident) : Option Decl :=
  i.decls.reverse.find? fun d => d.id = id

/-- The declaration that a name stands for. -/
def getByName? (i : Interface) (name : String) : Option Decl :=
  i.decls.find? fun d => d.name = name

/-- The function declarations, in order. -/
def functions (i : Interface) : List Decl :=
  i.decls.filter fun d => d.entity.isFunction

/-- The declared name of an ident, or the ident itself where it has none. -/
def nameOf (i : Interface) (id : Ident) : String :=
  match i.get? id with
  | some d => d.name
  | none => id.text

theorem mem_of_get? {i : Interface} {id : Ident} {d : Decl} (h : i.get? id = some d) :
    d ∈ i.decls := by
  simpa using List.mem_of_find?_eq_some h

theorem id_of_get? {i : Interface} {id : Ident} {d : Decl} (h : i.get? id = some d) :
    d.id = id := by
  simpa using List.find?_some h

end Interface

/-! ## Interfaces in words -/

namespace Interface

/-- A reference under the declared name of what it refers to. -/
def refText (i : Interface) : TypeRef → String
  | .atom a => a.text
  | .decl id => i.nameOf id
  | .foreign text => text

/-- Members or arguments with their types. -/
def fieldsText (i : Interface) (fields : List Field) : String :=
  ", ".intercalate (fields.map fun f => f.name ++ ": " ++ i.refText f.type)

/-- A list of parts in curly brackets, after its keyword. -/
def braced (keyword parts : String) : String :=
  if parts.isEmpty then keyword ++ " \x7b\x7d" else keyword ++ " \x7b " ++ parts ++ " \x7d"

/-- The description of an entity. -/
def describe (i : Interface) : Entity → String
  | .aliasOf target => "alias " ++ i.refText target
  | .struct members => braced "struct" (i.fieldsText members)
  | .enum variants => braced "enum" (", ".intercalate variants)
  | .function args result =>
    let tail := match result with
      | none => ""
      | some type => " -> " ++ i.refText type
    "fn(" ++ i.fieldsText args ++ ")" ++ tail
  | .foreign text => quoted text

end Interface

end HostDecl
