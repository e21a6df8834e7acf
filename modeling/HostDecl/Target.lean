import HostDecl.Fault

/-!
# Targets

A target triple names an architecture, a vendor, an operating system and an ABI. The architecture
decides everything that layouts depend on: the data layout of LLVM, the width of pointers and of
the C `int`, and the widest alignment that an atom can ask for. An atom is aligned to its own
size up to that bound.
-/

namespace HostDecl

/-! ## Triples -/

structure Platform where
  arch : String
  vendor : String
  os : String
  abi : String
  deriving DecidableEq, Repr

/-- The operating system without its version. -/
def osName (part : String) : String :=
  let name := part.toList.takeWhile (· != '.')
  if "darwin".toList.isPrefixOf name || "macos".toList.isPrefixOf name then "darwin"
  else String.ofList name

/-- The parts of a triple. Missing ones are unknown, a missing ABI is empty, and what follows
the fourth part is ignored. -/
def Platform.ofTriple (triple : String) : Platform :=
  let parts := (triple.toList.splitOn '-').map String.ofList
  { arch := parts[0]?.getD "unknown"
    vendor := parts[1]?.getD "unknown"
    os := osName (parts[2]?.getD "unknown")
    abi := parts[3]?.getD "" }

/-! ## Architectures -/

inductive Arch where
  | x86_64
  | i686
  | aarch64
  | arm
  | riscv64
  | wasm32
  | avr
  deriving DecidableEq, Repr

namespace Arch

def dataLayout : Arch → String
  | .x86_64 => "e-m:e-p:64:64-i64:64-f64:64-i128:128-f80:128-n8:16:32:64-S128"
  | .i686 => "e-m:e-p:32:32-i64:32:64-f64:32:64-f80:32-n8:16:32-S128"
  | .aarch64 => "e-m:e-p:64:64-i8:8:32-i16:16:32-i64:64-i128:128-n32:64-S128"
  | .arm => "e-m:e-p:32:32-i64:64-v128:64:128-a:0:32-n32-S64"
  | .riscv64 => "e-m:e-p:64:64-i64:64-i128:128-n32:64-S128"
  | .wasm32 => "e-m:e-p:32:32-i64:64-n32:64-S128"
  | .avr => "e-P1-p:16:8-i8:8-i16:8-i32:8-i64:8-f32:8-f64:8-n8-a:8"

def pointerBits : Arch → Nat
  | .x86_64 | .aarch64 | .riscv64 => 64
  | .i686 | .arm | .wasm32 => 32
  | .avr => 16

/-- The width of the C `int`. -/
def intWidth : Arch → Width
  | .avr => .w16
  | _ => .w32

/-- No atom is aligned to more than this many bytes. -/
def widestAlign : Arch → Nat
  | .avr => 1
  | .i686 => 4
  | _ => 8

/-- The alignment of an atom in bytes. -/
def alignOf (arch : Arch) (a : Atom) : Nat :=
  min a.bytes arch.widestAlign

theorem alignOf_pos (arch : Arch) (a : Atom) : 0 < arch.alignOf a := by
  cases arch <;> cases a <;> decide

/-- The architectures under the names that triples use. -/
def named : List (String × Arch) :=
  [("x86_64", .x86_64), ("amd64", .x86_64), ("i386", .i686), ("i486", .i686), ("i586", .i686),
   ("i686", .i686), ("x86", .i686), ("aarch64", .aarch64), ("arm64", .aarch64), ("arm", .arm),
   ("armv7", .arm), ("thumbv7", .arm), ("riscv64", .riscv64), ("wasm32", .wasm32),
   ("avr", .avr)]

end Arch

/-! ## Targets -/

structure Target where
  triple : String
  platform : Platform
  arch : Arch
  deriving DecidableEq, Repr

/-- The target of a triple, if its architecture is known. -/
def Target.ofTriple (triple : String) : Except Fault Target :=
  let platform := Platform.ofTriple triple
  match Arch.named.lookup platform.arch with
  | some arch => .ok { triple, platform, arch }
  | none => .error (.unknownArchitecture platform.arch triple)

end HostDecl
