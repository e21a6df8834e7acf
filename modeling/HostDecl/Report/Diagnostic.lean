import HostDecl.Text.Display

/-!
# Diagnostics

A diagnostic is an error or a warning with a code, and points at a declaration or at one of its
members. It is shown on one line, plain or with the colours of a terminal.
-/

namespace HostDecl

/-- Where a diagnostic applies. -/
structure Location where
  declaration : String
  member : Option String := none
  deriving DecidableEq, Repr

def Location.text (location : Location) : String :=
  match location.member with
  | none => location.declaration
  | some member => location.declaration ++ "." ++ member

/-- The weight of a diagnostic. Any label can be shown, but only errors and warnings count. -/
inductive DiagnosticKind where
  | error
  | warning
  | other (label : String)
  deriving DecidableEq, Repr

namespace DiagnosticKind

def label : DiagnosticKind → String
  | .error => "error"
  | .warning => "warning"
  | .other label => label

def ofLabel (label : String) : DiagnosticKind :=
  if label = "error" then .error
  else if label = "warning" then .warning
  else .other label

def colour : DiagnosticKind → String
  | .error => Style.red
  | .warning => Style.yellow
  | .other _ => ""

end DiagnosticKind

structure Diagnostic where
  kind : DiagnosticKind
  code : String
  message : String
  location : Option Location := none
  filename : Option String := none
  deriving DecidableEq, Repr

namespace Diagnostic

/-- The file and place that a diagnostic points at; an empty file name counts as none. -/
def place (d : Diagnostic) (defaultFilename : String) : String :=
  let file := match d.filename with
    | none => defaultFilename
    | some name => if name.isEmpty then defaultFilename else name
  match d.location with
  | none => file
  | some location => file ++ ":" ++ location.text

/-- The message as a sentence: it ends in one full stop. -/
def sentence (d : Diagnostic) : String :=
  if d.message.endsWith "." then d.message else d.message ++ "."

/-- The line that shows a diagnostic. -/
def render (d : Diagnostic) (defaultFilename : String) (colour : Bool) : String :=
  let place := d.place defaultFilename
  if colour then
    Style.cyan ++ place ++ Style.reset ++ ": "
      ++ Style.bold ++ d.kind.colour ++ d.kind.label ++ Style.reset
      ++ " [" ++ Style.dim ++ d.code ++ Style.reset ++ "]: " ++ d.sentence
  else
    place ++ ": " ++ d.kind.label ++ " [" ++ d.code ++ "]: " ++ d.sentence

end Diagnostic

end HostDecl
