import HostDecl.Text.Display

/-!
# Messages and their catalogue

Every message that can reach a user stands in one catalogue, under a code. Its wording is a
template: fixed text with named slots. Filling a template takes a value for each slot and fails
on the first slot that has none (`Template.fill`); values that no slot asks for are ignored.
-/

namespace HostDecl

inductive Severity where
  | error
  | warning
  deriving DecidableEq, Repr

/-- What a message is about. -/
inductive Category where
  | general
  | internal
  | unsupported
  | config
  | loader
  | layout
  deriving DecidableEq, Repr

/-! ## Templates -/

inductive Piece where
  | text (content : String)
  | slot (key : String)
  deriving DecidableEq, Repr

instance : Coe String Piece := ⟨Piece.text⟩

abbrev Template :=
  List Piece

/-- Values for slots. -/
abbrev Slots :=
  List (String × String)

namespace Template

/-- The names of the slots, in order. -/
def keys (t : Template) : List String :=
  t.filterMap fun
    | .text _ => none
    | .slot key => some key

/-- The template as it is written down: a slot is its name in curly brackets. -/
def source (t : Template) : String :=
  String.join <| t.map fun
    | .text content => content
    | .slot key => "\x7b" ++ key ++ "\x7d"

/-- The template with a value in each slot. -/
def render (t : Template) (value : String → String) : String :=
  String.join <| t.map fun
    | .text content => content
    | .slot key => value key

/-- The filled template, or the first slot without a value. -/
def fill (t : Template) (slots : Slots) : Except String String :=
  match t.keys.find? fun key => (slots.lookup key).isNone with
  | some key => .error key
  | none => .ok (t.render fun key => (slots.lookup key).getD "")

end Template

/-! ## Messages -/

structure Message where
  code : String
  severity : Severity
  template : Template
  category : Category := .general
  doc : String := ""
  deriving DecidableEq, Repr

namespace Message

/-! ### Broken invariants -/

def alreadyDefined : Message where
  code := "CE0001"
  severity := .error
  template := ["'", .slot "name", "' (", .slot "id", ") is already defined as '",
    .slot "existing", "'"]
  category := .internal
  doc := "A declaration was emitted twice in one session."

def notEmitted : Message where
  code := "CE0002"
  severity := .error
  template := ["reference to ", .slot "target", " before its declaration was emitted"]
  category := .internal
  doc := "Declarations were not supplied in dependency order."

def wrongOperation : Message where
  code := "CE0003"
  severity := .error
  template := [.slot "operation", " invoked on ", .slot "kind", " declaration '",
    .slot "name", "'"]
  category := .internal
  doc := "The declaration kind does not match the generator operation."

def missingAtoms : Message where
  code := "CE0004"
  severity := .error
  template := [.slot "host", " atom table has no entry for ", .slot "atoms"]
  category := .internal
  doc := "Every atom type must map to a host token."

def noLayout : Message where
  code := "CE0005"
  severity := .error
  template := ["no layout for ", .slot "kind", " declaration '", .slot "name", "'"]
  category := .internal
  doc := "Only aliases, structs and enums have a memory layout."

def containsItself : Message where
  code := "CE0006"
  severity := .error
  template := ["'", .slot "name", "' (", .slot "id", ") contains itself by value"]
  category := .internal
  doc := "A struct cannot hold itself, directly or through other declarations, "
    ++ "without indirection."

def noVariants : Message where
  code := "CE0007"
  severity := .error
  template := ["enum '", .slot "name", "' has no variants"]
  category := .internal
  doc := "Hosts reject enums without variants; the module loader never produces one."

/-! ### Unsupported declarations -/

def functionsUnsupported : Message where
  code := "CE1001"
  severity := .error
  template := ["the ", .slot "backend", " backend cannot emit function declarations ('",
    .slot "name", "')"]
  category := .unsupported
  doc := "Pick a backend that supports functions or skip them."

/-! ### Configuration -/

def unknownBackend : Message where
  code := "CE2001"
  severity := .error
  template := ["unknown backend '", .slot "name", "' (available: ", .slot "available", ")"]
  category := .config

def unknownArchitecture : Message where
  code := "CE2002"
  severity := .error
  template := ["unsupported target architecture '", .slot "arch", "' in triple '",
    .slot "triple", "'"]
  category := .config

def notIntegerAtom : Message where
  code := "CE2003"
  severity := .error
  template := ["invalid enum representation '", .slot "repr", "': expected an integer atom"]
  category := .config

def malformedConfig : Message where
  code := "CE2004"
  severity := .error
  template := ["malformed configuration ", .slot "path", ": ", .slot "reason"]
  category := .config

/-! ### Interface descriptions -/

def malformedModule : Message where
  code := "CE2101"
  severity := .error
  template := ["malformed module ", .slot "path", ": ", .slot "reason"]
  category := .loader

def unknownType : Message where
  code := "CE2102"
  severity := .error
  template := ["unknown type '", .slot "type", "' referenced by '", .slot "name", "'"]
  category := .loader

def redeclared : Message where
  code := "CE2103"
  severity := .error
  template := ["declaration '", .slot "name", "' is declared more than once"]
  category := .loader

/-! ### Warnings -/

def widened : Message where
  code := "CW0001"
  severity := .warning
  template := [.slot "atom", " is emitted as ", .slot "token", " on the ", .slot "host",
    " backend, which changes layout"]
  category := .layout
  doc := "The host token is wider than the declared atom."

def functionSkipped : Message where
  code := "CW0002"
  severity := .warning
  template := ["function '", .slot "name", "' skipped: the ", .slot "backend",
    " backend cannot emit functions"]
  category := .unsupported

end Message

/-! ## The catalogue -/

/-- Messages under distinct codes. -/
abbrev Catalog :=
  List Message

namespace Catalog

/-- All messages of the program. -/
def standard : Catalog :=
  [.alreadyDefined, .notEmitted, .wrongOperation, .missingAtoms, .noLayout, .containsItself,
   .noVariants, .functionsUnsupported, .unknownBackend, .unknownArchitecture, .notIntegerAtom,
   .malformedConfig, .malformedModule, .unknownType, .redeclared, .widened, .functionSkipped]

/-- The message under a code. -/
def find? (catalog : Catalog) (code : String) : Option Message :=
  List.find? (fun m => m.code == code) catalog

/-- The catalogue with one more message, unless its code is taken. -/
def insert? (catalog : Catalog) (m : Message) : Option Catalog :=
  if (catalog.find? m.code).isSome then none else some (catalog ++ [m])

/-- Why a message could not be worded. -/
inductive WordingFault where
  | unknownCode (code : String)
  | missingKey (key : String) (m : Message)
  deriving DecidableEq, Repr

def WordingFault.text : WordingFault → String
  | .unknownCode code => "unknown error code: " ++ code
  | .missingKey key m =>
    "missing text key '" ++ key ++ "' for " ++ m.code
      ++ " (needed by: " ++ quoted m.template.source ++ ")"

end Catalog

/-- The wording of a message for the given values. -/
def Message.fill (m : Message) (slots : Slots) : Except Catalog.WordingFault String :=
  match m.template.fill slots with
  | .ok text => .ok text
  | .error key => .error (.missingKey key m)

/-- The wording of the message under a code. -/
def Catalog.fill (catalog : Catalog) (code : String) (slots : Slots) :
    Except Catalog.WordingFault String :=
  match catalog.find? code with
  | none => .error (.unknownCode code)
  | some m => m.fill slots

end HostDecl
