import HostDecl.Config.Basic
import HostDecl.Toml.Reader

/-!
# Settings files

A settings file is a TOML text with an optional table `backend`, which can name the backend, the
target and the representation of enums. An empty target or representation counts as none; where
none is given, the target is the machine itself.
-/

namespace HostDecl

structure Settings where
  backend : String := "rust"
  config : Config
  deriving DecidableEq, Repr

namespace Settings

/-- The settings on a machine without a settings file. -/
def standard (machine : String) : Except Fault Settings := do
  let target ← Target.ofTriple machine
  pure { config := { target } }

/-- The table of the backend. -/
def readSection (path : String) (t : Toml.Table) : Except Fault Toml.Table :=
  match t.get? "backend" with
  | none => .ok []
  | some (.table entries) => .ok entries
  | some _ => .error (.malformedConfig path .backendNotTable)

/-- Text under a key, if there is anything. -/
def readText? (path : String) (t : Toml.Table) (key : String) : Except Fault (Option String) :=
  match t.get? key with
  | none => .ok none
  | some (.text content) => .ok (some content)
  | some _ => .error (.malformedConfig path (.notText key))

/-- Text that is not empty. -/
def nonEmpty? (text : Option String) : Option String :=
  text.filter fun content => !content.isEmpty

/-- The settings that a table gives on a machine. -/
def ofTable (machine path : String) (t : Toml.Table) : Except Fault Settings := do
  let entries ← readSection path t
  let backend ← readText? path entries "name"
  let triple ← readText? path entries "target"
  let enumText ← readText? path entries "enum_repr"
  let target ← Target.ofTriple ((nonEmpty? triple).getD machine)
  let enumRepr ← match nonEmpty? enumText with
    | none => pure none
    | some text => some <$> readEnumRepr text
  pure { backend := backend.getD "rust", config := { target, enumRepr } }

/-- The settings that a text gives on a machine. -/
def ofText (machine path text : String) : Except Fault Settings :=
  match Toml.parse text with
  | .ok t => ofTable machine path t
  | .error .malformed => .error (.malformedConfig path .syntaxError)
  | .error .longInteger => .error .longInteger

end Settings

end HostDecl
