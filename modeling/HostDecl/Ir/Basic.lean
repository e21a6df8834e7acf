import HostDecl.AtomTable

/-!
# Types and names of LLVM IR

Integers of a width, the two floating-point types, nothing, and structs that are known by a name.
Every name stands in double quotes; a double quote or a backslash in it is written by its number.

Inside one function every name is used once. A name that is asked for again gets a number after
a dot; the numbers of a name go up and are never given back, and a number that leads to a used
name is passed over (`nextFree`). The empty name counts as used from the start. The arguments
first ask for the empty name, then so does the result, and only then each argument asks for its
own name.
-/

namespace HostDecl

namespace Ir

inductive IrType where
  | int (bits : Nat)
  | float
  | double
  | void
  | struct (name : String)
  deriving DecidableEq, Repr

/-- A character inside a quoted name. -/
def escapedChar (c : Char) : List Char :=
  if c = '\\' then ['\\', '5', 'c']
  else if c = '"' then ['\\', '2', '2']
  else [c]

/-- A name in double quotes. -/
def quotedName (name : String) : String :=
  String.ofList ('"' :: name.toList.flatMap escapedChar ++ ['"'])

def IrType.text : IrType → String
  | .int bits => "i" ++ toString bits
  | .float => "float"
  | .double => "double"
  | .void => "void"
  | .struct name => "%" ++ quotedName name

/-- The type with the layout of an atom; truth values take a byte. -/
def IrType.ofAtom (a : Atom) : IrType :=
  match AtomTable.llvm.repr a with
  | .f32 => .float
  | .f64 => .double
  | repr => .int repr.bits

/-! ## Names of arguments -/

structure NameScope where
  used : List String := [""]
  counters : List (String × Nat) := []
  deriving DecidableEq, Repr

/-- A name with a number. -/
def numbered (base : String) (n : Nat) : String :=
  base ++ "." ++ toString n

namespace NameScope

/-- The last number that a name got. -/
def counter (s : NameScope) (base : String) : Nat :=
  (s.counters.lookup base).getD 0

/-- The next number that makes a name unused. One of the first numbers does, as many as there
are used names and one more. -/
def nextFree (s : NameScope) (base : String) : Nat :=
  let first := s.counter base + 1
  let candidates := List.range' first (s.used.length + 1)
  (candidates.find? fun n => numbered base n ∉ s.used).getD (first + s.used.length)

/-- A name that is unused in the scope, made from the one asked for, and the scope with it. -/
def register (s : NameScope) (base : String) : String × NameScope :=
  if base ∈ s.used then
    let n := s.nextFree base
    let name := numbered base n
    (name, { used := name :: s.used, counters := (base, n) :: s.counters })
  else
    (base, { s with used := base :: s.used })

/-- Names for several requests, in order. -/
def registerAll (s : NameScope) : List String → List String × NameScope
  | [] => ([], s)
  | base :: bases =>
    let (name, s) := s.register base
    let (names, s) := s.registerAll bases
    (name :: names, s)

end NameScope

/-- The names that the arguments of a function get. -/
def argumentNames (asked : List String) : List String :=
  let unnamed := List.replicate (asked.length + 1) ""
  (((({} : NameScope).registerAll unnamed).2).registerAll asked).1

end Ir

end HostDecl
