import HostDecl.Target

/-!
# Settings of a backend

Every backend is told the target and, if the discriminant of enums is to be another one than the
unsigned integer as wide as the target's C `int`, that integer. Settings can be overridden one by
one with text, as a command line does.
-/

namespace HostDecl

structure Config where
  target : Target
  enumRepr : Option IntAtom := none
  deriving DecidableEq, Repr

/-- The integer atom that represents enums. -/
def readEnumRepr (text : String) : Except Fault IntAtom :=
  match IntAtom.ofText? text with
  | some a => .ok a
  | none => .error (.notIntegerAtom text)

namespace Config

/-- The settings for a target and an atom, which has to be an integer. -/
def ofAtom (target : Target) (enumRepr : Option Atom) : Except Fault Config :=
  match enumRepr with
  | none => .ok { target }
  | some a =>
    match IntAtom.ofAtom? a with
    | some int => .ok { target, enumRepr := some int }
    | none => .error (.notIntegerAtom a.text)

/-- The integer that represents the variants of an enum. -/
def discriminant (config : Config) : IntAtom :=
  config.enumRepr.getD (IntAtom.unsigned config.target.arch.intWidth)

/-- The settings with another target, where one is given. -/
def withTarget (config : Config) : Option String → Except Fault Config
  | none => .ok config
  | some triple => do
    let target ← Target.ofTriple triple
    pure { config with target }

/-- The settings with another representation of enums, where one is given. -/
def withEnumRepr (config : Config) : Option String → Except Fault Config
  | none => .ok config
  | some text => do
    let enumRepr ← readEnumRepr text
    pure { config with enumRepr := some enumRepr }

/-- The settings with another target and another representation of enums, where given. A fault
in the target comes first. -/
def withOverrides (config : Config) (target enumRepr : Option String) : Except Fault Config := do
  (← config.withTarget target).withEnumRepr enumRepr

end Config

end HostDecl
