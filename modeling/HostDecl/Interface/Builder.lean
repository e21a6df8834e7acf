import HostDecl.Interface.Basic

/-!
# Building an interface

A builder hands out idents in the order of declaration. A declaration can also bring an ident of
its own; the builder then goes on after the greatest ident it has seen, so an ident that it hands
out is one that nobody has used before.
-/

namespace HostDecl

structure Builder where
  name : String := "module"
  decls : List Decl := []
  next : Int := 0
  deriving DecidableEq, Repr

namespace Builder

/-- A fresh ident, with nothing declared under it yet. -/
def reserve (b : Builder) : Ident × Builder :=
  (⟨b.next⟩, { b with next := b.next + 1 })

/-- The builder with a declaration under the given ident. -/
def add (b : Builder) (d : Decl) : Builder :=
  { b with decls := b.decls ++ [d], next := max b.next (d.id.index + 1) }

/-- The builder with a declaration, under the given ident or a fresh one. -/
def declare (b : Builder) (name : String) (entity : Entity) (id : Option Ident := none) :
    Ident × Builder :=
  match id with
  | some id => (id, b.add { id, name, entity })
  | none =>
    let (id, b) := b.reserve
    (id, b.add { id, name, entity })

/-- The interface that has been declared. -/
def build (b : Builder) : Interface where
  name := b.name
  decls := b.decls

/-- A request to a builder. -/
inductive Step where
  | reserve
  | declare (name : String) (entity : Entity) (id : Option Ident)
  deriving DecidableEq, Repr

def step (b : Builder) : Step → Ident × Builder
  | .reserve => b.reserve
  | .declare name entity id => b.declare name entity id

/-- The builder after a sequence of requests. -/
def run (b : Builder) (steps : List Step) : Builder :=
  steps.foldl (fun b s => (b.step s).2) b

end Builder

/-- The interface that a sequence of requests builds. -/
def Interface.ofSteps (name : String) (steps : List Builder.Step) : Interface :=
  (Builder.run { name } steps).build

end HostDecl
