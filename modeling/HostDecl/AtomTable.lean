import HostDecl.Host
import HostDecl.Target

/-!
# Atom tables

The table of a host gives, for each atom, the token that the host spells it with and the atom
whose layout that token has. Where the two atoms differ in width the atom is widened: Rust
declarations carry an `i8` as an `i32`. A table is total by construction (`complete`).
-/

namespace HostDecl

structure AtomEntry where
  token : String
  repr : Atom
  deriving DecidableEq, Repr

structure AtomTable where
  host : String
  entries : List (Atom × AtomEntry)
  complete : ∀ a, (entries.lookup a).isSome = true

namespace AtomTable

/-- The table of the given entries, if there is one for each atom. -/
def ofEntries (host : String) (entries : List (Atom × AtomEntry)) : Except Fault AtomTable :=
  if h : ∀ a ∈ Atom.all, (entries.lookup a).isSome = true then
    .ok { host, entries, complete := fun a => h a a.mem_all }
  else
    .error (.missingAtoms host (Atom.all.filter fun a => (entries.lookup a).isNone))

/-- The table that a function describes. -/
def ofFunction (host : String) (entry : Atom → AtomEntry) : AtomTable where
  host := host
  entries := Atom.all.map fun a => (a, entry a)
  complete := by intro a; cases a <;> rfl

def entry (t : AtomTable) (a : Atom) : AtomEntry :=
  (t.entries.lookup a).get (t.complete a)

/-- How the host writes an atom. -/
def token (t : AtomTable) (a : Atom) : String :=
  (t.entry a).token

/-- The atom whose layout the host's token has. -/
def repr (t : AtomTable) (a : Atom) : Atom :=
  (t.entry a).repr

/-- The host's token is of another width than the atom. -/
def widens (t : AtomTable) (a : Atom) : Bool :=
  (t.repr a).bits != a.bits

/-- The widened atoms, in the order of the entries. -/
def widened (t : AtomTable) : List Atom :=
  (t.entries.filter fun (a, e) => e.repr.bits != a.bits).map Prod.fst

/-! ## The hosts -/

def rust : AtomTable :=
  ofFunction "rust" fun
    | .i8 => ⟨"i32", .i32⟩
    | a => ⟨a.text, a⟩

def c : AtomTable :=
  ofFunction "c" fun a =>
    match a with
    | .bool => ⟨"bool", a⟩
    | .f32 => ⟨"float", a⟩
    | .f64 => ⟨"double", a⟩
    | .u8 | .u16 | .u32 | .u64 => ⟨"uint" ++ toString a.bits ++ "_t", a⟩
    | .i8 | .i16 | .i32 | .i64 => ⟨"int" ++ toString a.bits ++ "_t", a⟩

def llvm : AtomTable :=
  ofFunction "llvm" fun a =>
    match a with
    | .f32 => ⟨"float", a⟩
    | .f64 => ⟨"double", a⟩
    | _ => ⟨"i" ++ toString a.bits, a⟩

end AtomTable

/-- The atom table of a host. -/
def Host.atoms : Host → AtomTable
  | .rust => .rust
  | .c => .c
  | .llvm => .llvm

end HostDecl
