import HostDecl.Writer.Page

/-!
# Writing to a sink that may refuse

A gate decides, for the page as it is and the chunk that is to come, whether the sink takes the
chunk. A refused chunk is refused as a whole: the page stays as it was, and so does the knowledge
whether it stands at a break. `Writing` is the state of one page under a gate; what was written
before a refusal stays.
-/

namespace HostDecl

/-- Why a sink takes no chunk. -/
inductive Refusal where
  | full
  | closed
  deriving DecidableEq, Repr

abbrev Gate :=
  Page → String → Option Refusal

namespace Gate

/-- Takes everything. -/
def accepting : Gate :=
  fun _ _ => none

/-- Takes a chunk as long as the whole text has no more than `limit` bytes. -/
def upTo (limit : Nat) : Gate :=
  fun page chunk =>
    if page.text.utf8ByteSize + chunk.utf8ByteSize ≤ limit then none else some .full

/-- Takes nothing any more. -/
def closed : Gate :=
  fun _ _ => some .closed

end Gate

/-- Actions on a page that a refusal can stop. -/
abbrev Writing :=
  ExceptT Refusal (StateM Page)

namespace Writer

def line (w : Writer) (gate : Gate) (text : String := "") : Writing Unit := do
  let page ← get
  match gate page (w.chunk text) with
  | some refusal => throw refusal
  | none => set (page.writeLine w text)

def lines (w : Writer) (gate : Gate) (texts : List String) : Writing Unit :=
  texts.forM fun text => w.line gate text

def endBlock (w : Writer) (gate : Gate) : Writing Unit := do
  if (← get).atBreak then pure () else w.line gate

/-- A line that may be absent, such as the opening line of a block. -/
def optional (w : Writer) (gate : Gate) : Option String → Writing Unit
  | none => pure ()
  | some text => w.line gate text

end Writer

end HostDecl
