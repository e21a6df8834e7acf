import HostDecl.Atom
import HostDecl.Message
import HostDecl.Report.Diagnostic

/-!
# The reporter of a run

A reporter collects diagnostics in the order they are raised and never drops one. It names the
file that they are about, counts them, and shows them one to a line.
-/

namespace HostDecl

/-- What a stream says about itself, and the settings that speak about colour. -/
structure Stream where
  isTerminal : Bool := false
  noColor : Option String := none
  term : Option String := none
  deriving DecidableEq, Repr

/-- Colour goes to terminals that can show it, unless it is turned off. -/
def Stream.wantsColour (s : Stream) : Bool :=
  s.noColor.isNone && s.term != some "dumb" && s.isTerminal

/-- The warnings of a session. -/
inductive Warning where
  | widened (atom : Atom) (token host : String)
  | functionSkipped (name backend : String)
  deriving DecidableEq, Repr

namespace Warning

def message : Warning → Message
  | widened .. => .widened
  | functionSkipped .. => .functionSkipped

def slots : Warning → Slots
  | widened atom token host => [("atom", atom.text), ("token", token), ("host", host)]
  | functionSkipped name backend => [("name", name), ("backend", backend)]

def wording (w : Warning) : String :=
  w.message.template.render fun key => (w.slots.lookup key).getD ""

end Warning

structure Reporter where
  filename : String := "<module>"
  items : List Diagnostic := []
  deriving DecidableEq, Repr

namespace Reporter

/-- The reporter with one more diagnostic, which keeps the file name of this moment. -/
def add (r : Reporter) (kind : DiagnosticKind) (code message : String)
    (location : Option Location) : Reporter :=
  { r with items := r.items ++ [{ kind, code, message, location, filename := some r.filename }] }

/-- The reporter with a message of the catalogue. -/
def emit (r : Reporter) (m : Message) (slots : Slots) (location : Option Location) :
    Except Catalog.WordingFault Reporter :=
  match m.fill slots with
  | .error fault => .error fault
  | .ok text =>
    let kind := match m.severity with
      | .error => .error
      | .warning => .warning
    .ok (r.add kind m.code text location)

/-- The reporter with a warning. -/
def warn (r : Reporter) (w : Warning) (location : Location) : Reporter :=
  r.add .warning w.message.code w.wording (some location)

def count (r : Reporter) (kind : DiagnosticKind) : Nat :=
  r.items.countP fun d => d.kind = kind

def hasErrors (r : Reporter) : Bool :=
  r.count .error > 0

def hasWarnings (r : Reporter) : Bool :=
  r.count .warning > 0

def codes (r : Reporter) : List String :=
  r.items.map Diagnostic.code

/-- A count with its noun, such as `2 warnings`; nothing for none. -/
def counted (r : Reporter) (kind : DiagnosticKind) : List String :=
  match r.count kind with
  | 0 => []
  | 1 => ["1 " ++ kind.label]
  | n => [toString n ++ " " ++ kind.label ++ "s"]

/-- The counts in words, such as `1 error, 2 warnings`. -/
def summary (r : Reporter) : String :=
  ", ".intercalate (r.counted .error ++ r.counted .warning)

/-- All diagnostics, a line break between each two. -/
def format (r : Reporter) (colour : Bool) : String :=
  "\n".intercalate (r.items.map fun d => d.render r.filename colour)

/-- What goes to a stream: a line for each diagnostic. Colour follows the stream where it is not
asked for or forbidden. -/
def print (r : Reporter) (stream : Stream) (colour : Option Bool := none) : String :=
  if r.items.isEmpty then ""
  else r.format (colour.getD stream.wantsColour) ++ "\n"

end Reporter

end HostDecl
