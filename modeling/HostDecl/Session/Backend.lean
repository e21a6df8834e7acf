import HostDecl.Interface.Basic
import HostDecl.Session.Basic

/-!
# Backends

A backend knows how its host writes a declaration of each kind, and what frames the whole. The
operations here find out whether a declaration is of the kind that an operation is for, and run a
whole interface: a header comment and a declaration for each type, in order, and the functions if
the host has any.
-/

namespace HostDecl

structure Backend (V S : Type) where
  host : Host
  config : Config
  /-- What the backend keeps for itself at the start of a session. -/
  start : S
  /-- The host type of an atom. -/
  atomType : Atom → V
  /-- How a host type is written. -/
  valueText : V → String
  /-- What a comment line begins with. -/
  comment : String
  preamble : Interface → Emission V S Unit
  closing : Interface → Emission V S Unit
  aliasOf : Interface → Decl → TypeRef → Emission V S Unit
  struct : Interface → Decl → List Field → Emission V S Unit
  enum : Interface → Decl → List String → Emission V S Unit
  function : Interface → Decl → List Field → Option TypeRef → Emission V S Unit

namespace Backend

variable {V S : Type}

/-! ## Single declarations -/

/-- The failure of an operation on a declaration of another kind. -/
def wrongOperation (operation : String) (d : Decl) : Emission V S Unit :=
  throw (.wrongOperation operation d.entity.kind d.name)

/-- A comment that describes a declaration. -/
def emitHeader (b : Backend V S) (i : Interface) (d : Decl) : Emission V S Unit := do
  Emission.endBlock
  Emission.line (b.comment ++ " " ++ d.name ++ ": " ++ i.describe d.entity)

def emitAlias (b : Backend V S) (i : Interface) (d : Decl) : Emission V S Unit :=
  match d.entity with
  | .aliasOf target => b.aliasOf i d target
  | _ => wrongOperation "gen_alias" d

def emitStruct (b : Backend V S) (i : Interface) (d : Decl) : Emission V S Unit :=
  match d.entity with
  | .struct members => b.struct i d members
  | _ => wrongOperation "gen_struct" d

/-- An enum needs a variant. -/
def emitEnum (b : Backend V S) (i : Interface) (d : Decl) : Emission V S Unit :=
  match d.entity with
  | .enum [] => throw (.noVariants d.name)
  | .enum variants => b.enum i d variants
  | _ => wrongOperation "gen_enum" d

/-- A host without functions has none to offer for any declaration. -/
def emitFunction (b : Backend V S) (i : Interface) (d : Decl) : Emission V S Unit :=
  if b.host.emitsFunctions then
    match d.entity with
    | .function args result => b.function i d args result
    | _ => wrongOperation "gen_function" d
  else
    throw (.functionsUnsupported b.host.name d.name)

/-- A declaration by the operation for its kind. -/
def emitDecl (b : Backend V S) (i : Interface) (d : Decl) : Emission V S Unit :=
  match d.entity with
  | .aliasOf _ => b.emitAlias i d
  | .struct _ => b.emitStruct i d
  | .enum _ => b.emitEnum i d
  | .function .. => b.emitFunction i d
  | .foreign _ => wrongOperation "gen_declaration" d

/-! ## Whole interfaces -/

/-- Whether the functions of an interface are to be emitted. A host without functions skips them
with a warning for each, or fails at the first. -/
def admitFunctions (b : Backend V S) (i : Interface) (skipUnsupported : Bool) :
    Emission V S Bool := do
  match i.functions with
  | [] => pure true
  | first :: rest =>
    if b.host.emitsFunctions then
      pure true
    else if skipUnsupported then
      (first :: rest).forM fun d =>
        Emission.warn (.functionSkipped d.name b.host.name) { declaration := d.name }
      pure false
    else
      throw (.functionsUnsupported b.host.name first.name)

/-- One declaration of a run. -/
def emitEntry (b : Backend V S) (i : Interface) (functions : Bool) (d : Decl) :
    Emission V S Unit := do
  if d.entity.isFunction then
    if functions then b.emitDecl i d
  else
    b.emitHeader i d
    b.emitDecl i d

/-- Emit an interface. The first failure ends the run. -/
def run (b : Backend V S) (i : Interface) (skipUnsupported : Bool) : Emission V S Unit := do
  let functions ← b.admitFunctions i skipUnsupported
  b.preamble i
  i.decls.forM (b.emitEntry i functions)
  b.closing i

/-- What layouts depend on in sessions of a backend. -/
def abi (b : Backend V S) : Abi :=
  b.host.abi b.config

/-- A session in which nothing has happened. -/
def newSession (b : Backend V S) (reporter : Reporter := {}) : Session V S :=
  { reporter, own := b.start }

/-- The whole text for an interface, or the fault that ended the run, and the diagnostics. -/
def generate (b : Backend V S) (i : Interface) (skipUnsupported : Bool) (reporter : Reporter) :
    Except Fault String × Reporter :=
  match (b.run i skipUnsupported).run.run (b.newSession reporter) with
  | (.ok _, s) => (.ok s.page.text, s.reporter)
  | (.error fault, s) => (.error fault, s.reporter)

end Backend

end HostDecl
