import HostDecl.Writer.Gate

/-!
# A stack of writers

Blocks nest: opening one writes its first line and puts a deeper writer on the stack, closing it
takes the writer off and writes the last line. The steps work on the writer on top. A block whose
opening line is refused is not opened; a block whose closing line is refused is closed all the
same.
-/

namespace HostDecl

/-- An open block: its writer, and the line that closes it. -/
structure Block where
  writer : Writer
  closer : Option String := none
  deriving DecidableEq, Repr

/-- A page with a sink and the writers that are open on it. -/
structure WriterStack where
  page : Page := {}
  bottom : Writer := {}
  blocks : List Block := []
  limit : Option Nat := none
  closed : Bool := false
  deriving DecidableEq, Repr

inductive WriterStep where
  | line (text : String)
  | lines (texts : List String)
  | endBlock
  | openBlock (opener closer : Option String)
  | closeBlock
  | nestedBlock
  | flush
  | closeSink
  deriving DecidableEq, Repr

namespace WriterStack

/-- The writer on top. -/
def top (s : WriterStack) : Writer :=
  match s.blocks with
  | [] => s.bottom
  | block :: _ => block.writer

/-- What the sink takes. -/
def gate (s : WriterStack) : Gate :=
  if s.closed then .closed
  else match s.limit with
    | none => .accepting
    | some limit => .upTo limit

/-- The stack after an action on its page, with the refusal that stopped the action. -/
def act (s : WriterStack) (action : Writing Unit) : WriterStack × Option Refusal :=
  match action.run.run s.page with
  | (.ok _, page) => ({ s with page }, none)
  | (.error refusal, page) => ({ s with page }, some refusal)

/-- The stack with one more block. -/
def push (s : WriterStack) (closer : Option String) : WriterStack :=
  { s with blocks := { writer := s.top.nested, closer } :: s.blocks }

/-- The stack after a step that sends its lines through the given gate. -/
def stepUnder (s : WriterStack) (gate : Gate) : WriterStep → WriterStack × Option Refusal
  | .line text => s.act (s.top.line gate text)
  | .lines texts => s.act (s.top.lines gate texts)
  | .endBlock => s.act (s.top.endBlock gate)
  | .openBlock opener closer =>
    match s.act (s.top.optional gate opener) with
    | (s, none) => (s.push closer, none)
    | (s, some refusal) => (s, some refusal)
  | .closeBlock =>
    match s.blocks with
    | [] => (s, none)
    | block :: blocks =>
      let s := { s with blocks }
      s.act (s.top.optional gate block.closer)
  | .nestedBlock => (s.push none, none)
  | .flush => (s, if s.closed then some .closed else none)
  | .closeSink => ({ s with closed := true }, none)

def step (s : WriterStack) (step : WriterStep) : WriterStack × Option Refusal :=
  s.stepUnder s.gate step

/-- The stack after several steps. A step that is refused does not stop the next ones. -/
def run (s : WriterStack) (steps : List WriterStep) : WriterStack :=
  steps.foldl (fun s step => (s.step step).1) s

end WriterStack

end HostDecl
