import HostDecl.Ir.Basic
import HostDecl.Session.Backend

/-!
# Declarations in LLVM IR

Structs become named struct types, enums become constants, functions become declarations. IR has
no aliases: an alias resolves to the type of its target and leaves only a comment.

A session has one scope of names. Two structs with the same name in IR are the same type, whose
body can be given once. Constants and functions share one set of names, in which a name can be
used once and the empty name not at all.
-/

namespace HostDecl

namespace Llvm

open Ir

/-- The names of a session: the bodies of the structs that have one, and the used global names. -/
structure Scope where
  bodies : List (String × List IrType) := []
  globals : List String := [""]
  deriving DecidableEq, Repr

/-- Emissions of the LLVM backend: declarations resolve to types. -/
abbrev Emit :=
  Emission IrType Scope

def resolve (i : Interface) (type : TypeRef) : Emit IrType :=
  Emission.resolve IrType.ofAtom i type

/-- Record the type of a declaration. -/
def define (d : Decl) (type : IrType) : Emit Unit :=
  Emission.define IrType.text d type

def emitPreamble (config : Config) (i : Interface) : Emit Unit := do
  Emission.line ("; ModuleID = \"" ++ i.name ++ "\"")
  Emission.line ("target triple = \"" ++ config.target.triple ++ "\"")
  Emission.line ("target datalayout = \"" ++ config.target.arch.dataLayout ++ "\"")
  Emission.endBlock

def emitAlias (i : Interface) (d : Decl) (target : TypeRef) : Emit Unit := do
  let type ← resolve i target
  define d type
  Emission.line ("; " ++ Rules.llvm.typeName d.name ++ " = " ++ type.text)
  Emission.endBlock

/-- The struct type of a name, which must not be empty. -/
def structType (name : String) : Emit IrType :=
  if name.isEmpty then throw (.nameTaken name) else pure (.struct name)

/-- Give a struct its body, which it must not have yet. -/
def setBody (name : String) (elements : List IrType) : Emit Unit := do
  if ((← get).own.bodies.lookup name).isSome then
    throw (.bodySetTwice name)
  else
    modify fun s => { s with own := { s.own with bodies := (name, elements) :: s.own.bodies } }

/-- The line that declares a struct type. -/
def structLine (name : String) (elements : List IrType) : String :=
  (IrType.struct name).text ++ " = type \x7b" ++ ", ".intercalate (elements.map IrType.text)
    ++ "\x7d"

def emitStruct (config : Config) (i : Interface) (d : Decl) (members : List Field) :
    Emit Unit := do
  let name := Rules.llvm.typeName d.name
  let type ← structType name
  define d type
  let elements ← members.mapM fun member => resolve i member.type
  setBody name elements
  Emission.line (structLine name elements)
  let layout ← Emission.layoutOf (Host.llvm.abi config) i d.id
  Emission.line ("; size " ++ toString layout.size ++ ", align " ++ toString layout.align)
  Emission.endBlock

/-- Use a global name, which must be unused. -/
def useGlobal (name : String) : Emit Unit := do
  if name ∈ (← get).own.globals then
    throw (.nameTaken name)
  else
    modify fun s => { s with own := { s.own with globals := name :: s.own.globals } }

def emitVariant (type : IrType) (enumName variant : String) (value : Nat) : Emit Unit := do
  let name := enumName ++ "." ++ Rules.llvm.variantName variant
  useGlobal name
  Emission.line
    ("@" ++ quotedName name ++ " = constant " ++ type.text ++ " " ++ toString value)

def emitEnum (config : Config) (i : Interface) (d : Decl) (variants : List String) :
    Emit Unit := do
  let name := Rules.llvm.typeName d.name
  let type ← resolve i (.atom config.discriminant.val)
  define d type
  Emission.line ("; " ++ name ++ " = " ++ type.text)
  variants.zipIdx.forM fun (variant, value) => emitVariant type name variant value
  Emission.endBlock

/-- The line that declares a function. -/
def functionLine (name : String) (result : IrType) (args : List (IrType × String)) : String :=
  let params := args.map fun (type, name) => type.text ++ " %" ++ quotedName name
  "declare " ++ result.text ++ " @" ++ quotedName name ++ "(" ++ ", ".intercalate params ++ ")"

def emitFunction (i : Interface) (d : Decl) (args : List Field) (result : Option TypeRef) :
    Emit Unit := do
  let resultType ← match result with
    | none => pure .void
    | some type => resolve i type
  let types ← args.mapM fun arg => resolve i arg.type
  let name := Rules.llvm.functionName d.name
  useGlobal name
  let names := argumentNames (args.map fun arg => Rules.llvm.fieldName arg.name)
  Emission.line (functionLine name resultType (types.zip names))
  Emission.endBlock

/-- The LLVM backend. -/
def backend (config : Config) : Backend IrType Scope where
  host := .llvm
  config := config
  start := {}
  atomType := IrType.ofAtom
  valueText := IrType.text
  comment := ";"
  preamble := emitPreamble config
  closing _ := pure ()
  aliasOf := emitAlias
  struct := emitStruct config
  enum := emitEnum config
  function := emitFunction

end Llvm

end HostDecl
