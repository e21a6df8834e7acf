import HostDecl.Interface.Basic

/-!
# The registry of a session

The registry remembers what the host calls each declaration that has been emitted. Entries are
added once and never change; their order is the order of emission. A reference to an atom needs
no entry, as the host has a token for it. A reference that has no entry yet, and text that is no
reference, cannot be resolved.
-/

namespace HostDecl

structure Registry (α : Type) where
  entries : List (Ident × α) := []
  names : List (Ident × String) := []
  deriving Repr

/-- Why a reference has no host type. -/
inductive Unresolved where
  | undefined (id : Ident)
  | notReference
  deriving DecidableEq, Repr

namespace Registry

variable {α : Type}

/-- What an ident resolves to. -/
def get? (r : Registry α) (id : Ident) : Option α :=
  r.entries.lookup id

/-- The name that an ident was defined under. -/
def declaredName? (r : Registry α) (id : Ident) : Option String :=
  r.names.lookup id

/-- The defined idents, in the order of definition. -/
def idents (r : Registry α) : List Ident :=
  r.entries.map Prod.fst

def contains (r : Registry α) (id : Ident) : Bool :=
  (r.get? id).isSome

def size (r : Registry α) : Nat :=
  r.entries.length

/-- The registry in which an ident resolves to a value; the value in its place, if it has one. -/
def define (r : Registry α) (id : Ident) (value : α) (name : Option String := none) :
    Except α (Registry α) :=
  match r.get? id with
  | some existing => .error existing
  | none => .ok
    { entries := r.entries ++ [(id, value)]
      names := match name with
        | none => r.names
        | some name => r.names ++ [(id, name)] }

/-- What a reference resolves to, given the host types of atoms. -/
def resolve (r : Registry α) (atomType : Atom → α) : TypeRef → Except Unresolved α
  | .atom a => .ok (atomType a)
  | .decl id =>
    match r.get? id with
    | some value => .ok value
    | none => .error (.undefined id)
  | .foreign _ => .error .notReference

end Registry

end HostDecl
