/-!
# Atoms

The eleven atomic types of an interface: the truth value, unsigned and signed integers of one to
eight bytes, and the two floating-point widths. `Atom.all` lists them in the order of their
declaration, which is the order used wherever every atom is named.
-/

namespace HostDecl

inductive Atom where
  | bool
  | u8
  | u16
  | u32
  | u64
  | i8
  | i16
  | i32
  | i64
  | f32
  | f64
  deriving DecidableEq, Repr

/-- The widths that an integer can have. -/
inductive Width where
  | w8
  | w16
  | w32
  | w64
  deriving DecidableEq, Repr

namespace Width

def all : List Width :=
  [.w8, .w16, .w32, .w64]

def bits : Width → Nat
  | .w8 => 8
  | .w16 => 16
  | .w32 => 32
  | .w64 => 64

/-- The width of that many bits. -/
def ofBits? (n : Int) : Option Width :=
  all.find? fun w => (w.bits : Int) = n

end Width

namespace Atom

def all : List Atom :=
  [.bool, .u8, .u16, .u32, .u64, .i8, .i16, .i32, .i64, .f32, .f64]

theorem mem_all (a : Atom) : a ∈ all := by
  cases a <;> simp [all]

/-- The spelling of an atom in an interface description. -/
def text : Atom → String
  | .bool => "bool"
  | .u8 => "u8"
  | .u16 => "u16"
  | .u32 => "u32"
  | .u64 => "u64"
  | .i8 => "i8"
  | .i16 => "i16"
  | .i32 => "i32"
  | .i64 => "i64"
  | .f32 => "f32"
  | .f64 => "f64"

instance : ToString Atom := ⟨text⟩

/-- The width in bits; a truth value takes a byte. -/
def bits : Atom → Nat
  | .bool | .u8 | .i8 => 8
  | .u16 | .i16 => 16
  | .u32 | .i32 | .f32 => 32
  | .u64 | .i64 | .f64 => 64

def bytes (a : Atom) : Nat :=
  a.bits / 8

def isFloat : Atom → Bool
  | .f32 | .f64 => true
  | _ => false

def isInteger (a : Atom) : Bool :=
  !a.isFloat && a != .bool

/-- The atom with that spelling, in any letter case. -/
def ofText? (text : String) : Option Atom :=
  let lower := text.toLower
  all.find? fun a => a.text == lower

/-- The unsigned integer of a width. -/
def unsigned : Width → Atom
  | .w8 => .u8
  | .w16 => .u16
  | .w32 => .u32
  | .w64 => .u64

end Atom

/-- An atom that is an integer, which is what a discriminant can be. -/
abbrev IntAtom :=
  { a : Atom // a.isInteger = true }

namespace IntAtom

/-- The atom, if it is an integer. -/
def ofAtom? (a : Atom) : Option IntAtom :=
  if h : a.isInteger = true then some ⟨a, h⟩ else none

/-- The integer atom with that spelling, in any letter case. -/
def ofText? (text : String) : Option IntAtom :=
  (Atom.ofText? text).bind ofAtom?

/-- The unsigned integer of a width. -/
def unsigned : Width → IntAtom
  | .w8 => ⟨.u8, rfl⟩
  | .w16 => ⟨.u16, rfl⟩
  | .w32 => ⟨.u32, rfl⟩
  | .w64 => ⟨.u64, rfl⟩

end IntAtom

end HostDecl
