import HostDecl.Interface.Basic
import HostDecl.Message

/-!
# Faults

A fault is the cause of a failure. Most have a message in the catalogue and belong to a family
that says who has to act: broken invariants of the generator and its driver, declarations that a
host cannot express, settings, and interface descriptions. The other causes have no message of
their own: a reference that refers to nothing, a name that IR has used before, a struct of IR whose
body is given twice, a file that is not text, an integer in a file that is too long, a path that
no file can have, and an option whose value is left blank.
-/

namespace HostDecl

/-- What is wrong with a settings file. -/
inductive ConfigDefect where
  | syntaxError
  | backendNotTable
  | notText (key : String)
  deriving DecidableEq, Repr

def ConfigDefect.reason : ConfigDefect → String
  | .syntaxError => "<toml syntax error>"
  | .backendNotTable => "[backend] must be a table"
  | .notText key => "'" ++ key ++ "' must be a string"

/-- What is wrong with the shape of an interface description. -/
inductive ModuleDefect where
  | syntaxError
  | nameNotText
  | declarationsNotArray
  | notTable (index : Nat)
  | missingText (index : Nat) (key : String)
  | unknownKind (name kind : String)
  | typeNotText (owner : String)
  | fieldsNotTables (key owner : String)
  | variantsNotText (owner : String)
  | noVariants (owner : String)
  deriving DecidableEq, Repr

def ModuleDefect.reason : ModuleDefect → String
  | .syntaxError => "<toml syntax error>"
  | .nameNotText => "'name' must be a string"
  | .declarationsNotArray => "'declaration' must be an array of tables"
  | .notTable index => "declaration #" ++ toString index ++ " is not a table"
  | .missingText index key =>
    "declaration #" ++ toString index ++ " needs a string '" ++ key ++ "'"
  | .unknownKind name kind => "declaration '" ++ name ++ "' has unknown kind '" ++ kind ++ "'"
  | .typeNotText owner => "type in '" ++ owner ++ "' must be a string"
  | .fieldsNotTables key owner => "'" ++ key ++ "' of '" ++ owner ++ "' must be an array of tables"
  | .variantsNotText owner => "variants of '" ++ owner ++ "' must be strings"
  | .noVariants owner => "enum '" ++ owner ++ "' needs at least one variant"

inductive Fault where
  | alreadyDefined (name : String) (id : Ident) (existing : String)
  | notEmitted (name : Option String) (id : Ident)
  | wrongOperation (operation kind name : String)
  | missingAtoms (host : String) (atoms : List Atom)
  | noLayout (kind name : String)
  | containsItself (name : String) (id : Ident)
  | noVariants (name : String)
  | functionsUnsupported (backend name : String)
  | unknownBackend (name : String) (available : List String)
  | unknownArchitecture (arch triple : String)
  | notIntegerAtom (text : String)
  | malformedConfig (path : String) (defect : ConfigDefect)
  | malformedModule (path : String) (defect : ModuleDefect)
  | unknownType (type owner : String)
  | redeclared (name : String)
  | notReference
  | nameTaken (name : String)
  | bodySetTwice (name : String)
  | notText
  | longInteger
  | noSuchPath
  | blankOption
  deriving DecidableEq, Repr

/-- Who has to act on a fault that has a message. -/
inductive Family where
  | internal
  | unsupported
  | config
  | loader
  deriving DecidableEq, Repr

namespace Fault

/-- The message of a fault. -/
def message? : Fault → Option Message
  | alreadyDefined .. => some .alreadyDefined
  | notEmitted .. => some .notEmitted
  | wrongOperation .. => some .wrongOperation
  | missingAtoms .. => some .missingAtoms
  | noLayout .. => some .noLayout
  | containsItself .. => some .containsItself
  | noVariants .. => some .noVariants
  | functionsUnsupported .. => some .functionsUnsupported
  | unknownBackend .. => some .unknownBackend
  | unknownArchitecture .. => some .unknownArchitecture
  | notIntegerAtom .. => some .notIntegerAtom
  | malformedConfig .. => some .malformedConfig
  | malformedModule .. => some .malformedModule
  | unknownType .. => some .unknownType
  | redeclared .. => some .redeclared
  | notReference | nameTaken _ | bodySetTwice _ | notText | longInteger | noSuchPath
  | blankOption => none

/-- The values that the message of a fault speaks of. -/
def slots : Fault → Slots
  | alreadyDefined name id existing =>
    [("name", if name.isEmpty then id.text else name), ("id", id.text), ("existing", existing)]
  | notEmitted none id => [("target", id.text)]
  | notEmitted (some name) id => [("target", "'" ++ name ++ "' (" ++ id.text ++ ")")]
  | wrongOperation operation kind name =>
    [("operation", operation), ("kind", kind), ("name", name)]
  | missingAtoms host atoms =>
    [("host", host), ("atoms", ", ".intercalate (atoms.map Atom.text))]
  | noLayout kind name => [("kind", kind), ("name", name)]
  | containsItself name id => [("name", name), ("id", id.text)]
  | noVariants name => [("name", name)]
  | functionsUnsupported backend name => [("backend", backend), ("name", name)]
  | unknownBackend name available =>
    [("name", name), ("available", ", ".intercalate available)]
  | unknownArchitecture arch triple => [("arch", arch), ("triple", triple)]
  | notIntegerAtom text => [("repr", text)]
  | malformedConfig path defect => [("path", path), ("reason", defect.reason)]
  | malformedModule path defect => [("path", path), ("reason", defect.reason)]
  | unknownType type owner => [("type", type), ("name", owner)]
  | redeclared name => [("name", name)]
  | notReference | nameTaken _ | bodySetTwice _ | notText | longInteger | noSuchPath
  | blankOption => []

/-- A fault has a value for each slot of its message. -/
theorem slots_complete (f : Fault) {m : Message} (h : f.message? = some m) :
    ∀ key ∈ m.template.keys, (f.slots.lookup key).isSome := by
  cases f <;> simp only [message?, Option.some.injEq, reduceCtorEq] at h <;> subst h
  case notEmitted name id =>
    cases name <;> simp [Message.notEmitted, Template.keys, slots]
  all_goals
    simp [Message.alreadyDefined, Message.wrongOperation, Message.missingAtoms, Message.noLayout,
      Message.containsItself, Message.noVariants, Message.functionsUnsupported,
      Message.unknownBackend, Message.unknownArchitecture, Message.notIntegerAtom,
      Message.malformedConfig, Message.malformedModule, Message.unknownType, Message.redeclared,
      Template.keys, slots, List.lookup_cons]

/-- The code of a fault that has a message. -/
def code? (f : Fault) : Option String :=
  f.message?.map Message.code

/-- The family of a fault that has a message. -/
def family? : Fault → Option Family
  | alreadyDefined .. | notEmitted .. | wrongOperation .. | missingAtoms .. | noLayout ..
  | containsItself .. | noVariants .. => some .internal
  | functionsUnsupported .. => some .unsupported
  | unknownBackend .. | unknownArchitecture .. | notIntegerAtom .. | malformedConfig .. =>
    some .config
  | malformedModule .. | unknownType .. | redeclared .. => some .loader
  | notReference | nameTaken _ | bodySetTwice _ | notText | longInteger | noSuchPath
  | blankOption => none

/-- The wording of a fault's message. -/
def wording (f : Fault) (m : Message) : String :=
  m.template.render fun key => (f.slots.lookup key).getD ""

/-- The full line of a fault: its code and wording, or what little there is to say. -/
def text (f : Fault) : String :=
  match f.message? with
  | some m => m.code ++ ": " ++ f.wording m
  | none =>
    match f with
    | nameTaken name => name
    | bodySetTwice name => name ++ " is already defined"
    | _ => ""

end Fault

end HostDecl
