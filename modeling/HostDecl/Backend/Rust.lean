import HostDecl.Session.Backend

/-!
# Declarations in Rust

Types become `pub` declarations with the layout of C. Rust declarations go through the tokens of
the atom table, and a session warns where one of them is wider than the atom it stands for.
-/

namespace HostDecl

namespace Rust

/-- Emissions of the Rust backend: declarations resolve to the text of their names. -/
abbrev Emit :=
  Emission String Unit

def resolve (i : Interface) (type : TypeRef) : Emit String :=
  Emission.resolve AtomTable.rust.token i type

/-- The name of a type, recorded for its declaration. -/
def defineName (d : Decl) : Emit String := do
  let name := Rules.rust.typeName d.name
  Emission.define id d name
  pure name

def emitAlias (i : Interface) (d : Decl) (target : TypeRef) : Emit Unit := do
  let targetName ← resolve i target
  Emission.checkWidening .rust target { declaration := d.name }
  let name ← defineName d
  Emission.line ("pub type " ++ name ++ " = " ++ targetName ++ ";")
  Emission.endBlock

def emitMember (i : Interface) (d : Decl) (member : Field) : Emit Unit := do
  Emission.checkWidening .rust member.type { declaration := d.name, member := some member.name }
  let type ← resolve i member.type
  Emission.line ("pub " ++ Rules.rust.fieldName member.name ++ ": " ++ type ++ ",") 1

/-- A struct that contains itself is refused before anything is written. -/
def emitStruct (config : Config) (i : Interface) (d : Decl) (members : List Field) :
    Emit Unit := do
  let name ← defineName d
  let _ ← Emission.layoutOf (Host.rust.abi config) i d.id
  Emission.line "#[repr(C)]"
  Emission.block ("pub struct " ++ name ++ " \x7b") "\x7d" (members.forM (emitMember i d))
  Emission.endBlock

def emitVariant (variant : String) : Emit Unit :=
  Emission.line (Rules.rust.variantName variant ++ ",") 1

def emitEnum (config : Config) (i : Interface) (d : Decl) (variants : List String) :
    Emit Unit := do
  let name ← defineName d
  let repr := TypeRef.atom config.discriminant.val
  Emission.checkWidening .rust repr { declaration := d.name }
  let reprName ← resolve i repr
  Emission.line ("#[repr(" ++ reprName ++ ")]")
  Emission.line "#[derive(Clone, Copy, Debug, PartialEq, Eq, PartialOrd, Ord, Hash)]"
  Emission.block ("pub enum " ++ name ++ " \x7b") "\x7d" (variants.forM emitVariant)
  Emission.endBlock

/-- The Rust backend. It has no functions. -/
def backend (config : Config) : Backend String Unit where
  host := .rust
  config := config
  start := ()
  atomType := AtomTable.rust.token
  valueText := id
  comment := "///"
  preamble _ := pure ()
  closing _ := pure ()
  aliasOf := emitAlias
  struct := emitStruct config
  enum := emitEnum config
  function _ d _ _ := throw (.functionsUnsupported "rust" d.name)

end Rust

end HostDecl
