import HostDecl.Config.Basic
import HostDecl.Layout.Sizing
import HostDecl.Registry
import HostDecl.Report.Reporter
import HostDecl.Writer.Page

/-!
# Sessions

A session emits declarations one after the other. It owns the page that it writes, the registry
of what it has defined, the diagnostics, and the layouts of the interface that it worked on last.
An emission is a step of a session that can fail; what it did before it failed stays done.

A session works for one host. `V` is the type of what declarations resolve to there, and `S` is
what the host keeps for itself.
-/

namespace HostDecl

/-- What layouts depend on when a host is given its settings. -/
def Host.abi (host : Host) (config : Config) : Abi where
  table := host.atoms
  arch := config.target.arch
  discriminant := config.discriminant.val

structure Session (V S : Type) where
  page : Page := {}
  defined : Registry V := {}
  reporter : Reporter := {}
  sizing : Option Sizing := none
  reported : List Atom := []
  own : S

/-- Steps of a session that can fail. -/
abbrev Emission (V S : Type) :=
  ExceptT Fault (StateM (Session V S))

namespace Emission

variable {V S : Type}

/-! ## Writing -/

/-- Write a line at a depth. -/
def line (text : String) (depth : Nat := 0) : Emission V S Unit :=
  modify fun s => { s with page := s.page.writeLine { depth } text }

/-- Put a blank line between what is written and what follows. -/
def endBlock : Emission V S Unit :=
  modify fun s => { s with page := s.page.endBlock {} }

/-- Write a block: its first line, what stands inside, and its last line. A failure inside leaves
the block open. -/
def block (opener closer : String) (inside : Emission V S Unit) : Emission V S Unit := do
  line opener
  inside
  line closer

/-! ## Definitions -/

/-- Record what a declaration resolves to; no declaration can be recorded twice. -/
def define (valueText : V → String) (d : Decl) (value : V) : Emission V S Unit := do
  match (← get).defined.define d.id value (some d.name) with
  | .ok defined => modify fun s => { s with defined }
  | .error existing => throw (.alreadyDefined d.name d.id (valueText existing))

/-- What a reference resolves to. -/
def resolve (atomType : Atom → V) (i : Interface) (type : TypeRef) : Emission V S V := do
  match (← get).defined.resolve atomType type with
  | .ok value => pure value
  | .error (.undefined id) => throw (.notEmitted (some (i.nameOf id)) id)
  | .error .notReference => throw .notReference

/-! ## Layouts -/

/-- The calculator of an interface, kept for as long as the session stays with the interface. -/
def sizingOf (abi : Abi) (i : Interface) (s : Session V S) : Sizing :=
  match s.sizing with
  | some sizing => if sizing.interface = i then sizing else { interface := i, abi }
  | none => { interface := i, abi }

/-- Ask the calculator of an interface. -/
def askSizing (abi : Abi) (i : Interface) (query : Sizing → Except Fault Layout × Sizing) :
    Emission V S Layout := do
  let (answer, sizing) := query (sizingOf abi i (← get))
  modify fun s => { s with sizing := some sizing }
  match answer with
  | .ok layout => pure layout
  | .error fault => throw fault

/-- The layout of a declaration. -/
def layoutOf (abi : Abi) (i : Interface) (id : Ident) : Emission V S Layout :=
  askSizing abi i fun sizing => sizing.layoutOf id

/-! ## Warnings -/

def warn (w : Warning) (location : Location) : Emission V S Unit :=
  modify fun s => { s with reporter := s.reporter.warn w location }

/-- Warn about an atom whose token has another width, once for each atom in a session. -/
def checkWidening (table : AtomTable) (type : TypeRef) (location : Location) :
    Emission V S Unit := do
  match type with
  | .atom a =>
    if table.widens a && !(← get).reported.contains a then
      modify fun s => { s with reported := a :: s.reported }
      warn (.widened a (table.token a) table.host) location
  | _ => pure ()

end Emission

end HostDecl
