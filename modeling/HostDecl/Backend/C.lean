import HostDecl.Session.Backend

/-!
# A header in C

A guarded header that declares every type and function. After each struct come static assertions
about its size, its alignment and the offset of each member, with the numbers of the configured
target: a compiler that lays the struct out in another way refuses the header.
-/

namespace HostDecl

namespace C

/-- Emissions of the C backend: declarations resolve to the text that names their types. -/
abbrev Emit :=
  Emission String Unit

def resolve (i : Interface) (type : TypeRef) : Emit String :=
  Emission.resolve AtomTable.c.token i type

/-- The macro that guards the header of an interface. -/
def includeGuard (i : Interface) : String :=
  let name := CaseStyle.shouty.convert i.name
  (if name.isEmpty then "IDL" else name) ++ "_H"

def emitPreamble (config : Config) (i : Interface) : Emit Unit := do
  Emission.line
    ("// Generated by idlc from '" ++ i.name ++ "' for " ++ config.target.triple ++ ".")
  Emission.line ("#ifndef " ++ includeGuard i)
  Emission.line ("#define " ++ includeGuard i)
  Emission.endBlock
  ["stdbool.h", "stddef.h", "stdint.h"].forM fun header =>
    Emission.line ("#include <" ++ header ++ ">")
  Emission.endBlock

def emitClosing (i : Interface) : Emit Unit := do
  Emission.endBlock
  Emission.line ("#endif // " ++ includeGuard i)

def emitAlias (i : Interface) (d : Decl) (target : TypeRef) : Emit Unit := do
  let targetName ← resolve i target
  let name := Rules.c.typeName d.name
  Emission.define id d name
  Emission.line ("typedef " ++ targetName ++ " " ++ name ++ ";")
  Emission.endBlock

/-- A line that makes the compiler check that an expression has the given value. -/
def staticAssert (what : String) (value : Nat) : Emit Unit :=
  Emission.line
    ("_Static_assert(" ++ what ++ " == " ++ toString value ++ ", \"bad " ++ what ++ "\");")

def emitMember (i : Interface) (member : Field) : Emit Unit := do
  let type ← resolve i member.type
  Emission.line (type ++ " " ++ Rules.c.fieldName member.name ++ ";") 1

def emitStruct (config : Config) (i : Interface) (d : Decl) (members : List Field) :
    Emit Unit := do
  let tag := "struct " ++ Rules.c.typeName d.name
  Emission.define id d tag
  Emission.block (tag ++ " \x7b") "\x7d;" (members.forM (emitMember i))
  let layout ← Emission.layoutOf (Host.c.abi config) i d.id
  staticAssert ("sizeof(" ++ tag ++ ")") layout.size
  staticAssert ("_Alignof(" ++ tag ++ ")") layout.align
  (members.zip layout.offsets).forM fun (member, offset) =>
    staticAssert ("offsetof(" ++ tag ++ ", " ++ Rules.c.fieldName member.name ++ ")") offset
  Emission.endBlock

/-- The constants of an enum are `int`; the type definition fixes how one is stored. -/
def emitEnum (config : Config) (i : Interface) (d : Decl) (variants : List String) :
    Emit Unit := do
  let name := Rules.c.typeName d.name
  Emission.define id d name
  let reprName ← resolve i (.atom config.discriminant.val)
  Emission.block ("enum ___" ++ name ++ " \x7b") "\x7d;" <|
    variants.zipIdx.forM fun (variant, value) =>
      Emission.line (CaseStyle.shouty.convert d.name ++ "_" ++ Rules.c.variantName variant
        ++ " = " ++ toString value ++ ",") 1
  Emission.line ("typedef " ++ reprName ++ " " ++ name ++ "; // enum ___" ++ name)
  Emission.endBlock

def emitFunction (i : Interface) (d : Decl) (args : List Field) (result : Option TypeRef) :
    Emit Unit := do
  let resultName ← match result with
    | none => pure "void"
    | some type => resolve i type
  let params ← args.mapM fun arg => do
    let type ← resolve i arg.type
    pure (type ++ " " ++ Rules.c.fieldName arg.name)
  let paramText := if params.isEmpty then "void" else ", ".intercalate params
  Emission.line (resultName ++ " " ++ Rules.c.functionName d.name ++ "(" ++ paramText ++ ");")
  Emission.endBlock

/-- The C backend. -/
def backend (config : Config) : Backend String Unit where
  host := .c
  config := config
  start := ()
  atomType := AtomTable.c.token
  valueText := id
  comment := "//"
  preamble := emitPreamble config
  closing := emitClosing
  aliasOf := emitAlias
  struct := emitStruct config
  enum := emitEnum config
  function := emitFunction

end C

end HostDecl
