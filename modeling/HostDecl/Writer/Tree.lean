import HostDecl.Writer.Stack

/-!
# A tree of writers

A writer stays usable when one inside it is opened, and a writer inside a block stays usable when
the block is closed. So whoever has a writer may take a turn with it at any time, and all turns go
to one page. A writer is told by the blocks that are open around it.

Every turn is a step of the stack that ends in one writer, and answers a writer: the one that is
on top after the step. Which chunks the sink takes may be another question in every turn, so each
turn has a gate of its own. A sink that is closed is one whose gates take nothing any more.
-/

namespace HostDecl

/-- A page, and the blocks around each of the writers that there are, the innermost first. -/
structure WriterTree where
  page : Page := {}
  bottom : Writer := {}
  branches : List (List Block) := [[]]
  deriving DecidableEq, Repr

/-- A step with one of the writers of a tree. -/
structure Turn where
  branch : Nat
  step : WriterStep
  gate : Gate := .accepting

namespace WriterTree

/-- The stack that ends in a writer of the tree. -/
def stackAt (t : WriterTree) (blocks : List Block) : WriterStack :=
  { page := t.page, bottom := t.bottom, blocks }

/-- The tree with the page of a stack, and the writer on top of that stack as the last one. -/
def answer (t : WriterTree) (s : WriterStack) : WriterTree :=
  { t with page := s.page, branches := t.branches ++ [s.blocks] }

/-- The tree after a turn. A turn with a writer that there is not has no effect. -/
def step (t : WriterTree) (turn : Turn) : WriterTree × Option Refusal :=
  match t.branches[turn.branch]? with
  | none => (t, none)
  | some blocks =>
    match (t.stackAt blocks).stepUnder turn.gate turn.step with
    | (s, refusal) => (t.answer s, refusal)

/-- The tree after several turns. A turn that is refused does not stop the next ones. -/
def run (t : WriterTree) (turns : List Turn) : WriterTree :=
  turns.foldl (fun t turn => (t.step turn).1) t

end WriterTree

end HostDecl
