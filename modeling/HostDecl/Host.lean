import HostDecl.Name.Rules

/-!
# Hosts

The three hosts that declarations are written for.
-/

namespace HostDecl

inductive Host where
  | rust
  | c
  | llvm
  deriving DecidableEq, Repr

namespace Host

/-- In the order of their names. -/
def all : List Host :=
  [.c, .llvm, .rust]

def name : Host → String
  | .rust => "rust"
  | .c => "c"
  | .llvm => "llvm"

def rules : Host → Rules
  | .rust => .rust
  | .c => .c
  | .llvm => .llvm

/-- The host can declare functions, not only types. -/
def emitsFunctions : Host → Bool
  | .rust => false
  | .c | .llvm => true

/-- What the host can declare besides types. -/
def capabilities (host : Host) : List String :=
  if host.emitsFunctions then ["functions"] else []

/-- The host with that name, in any letter case. -/
def ofName? (name : String) : Option Host :=
  let lower := name.toLower
  all.find? fun host => host.name == lower

end Host

end HostDecl
