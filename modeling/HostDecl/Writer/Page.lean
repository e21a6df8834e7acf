/-!
# Pages and writers

A page is the text that a sink has taken so far, together with the knowledge whether it stands
at a break: nothing is written yet, or the last line is blank. A writer turns a line into the
chunk that it sends, with the line's indentation and its end. All writers of a run share one
page and differ only in their depth.

`Page.endBlock` separates what follows by one blank line, and adds none where the page is at a
break already.
-/

namespace HostDecl

structure Page where
  text : String := ""
  atBreak : Bool := true
  deriving DecidableEq, Repr

structure Writer where
  indent : String := "    "
  depth : Nat := 0
  deriving DecidableEq, Repr

namespace Writer

/-- The indentation in front of a line. -/
def margin (w : Writer) : String :=
  String.join (List.replicate w.depth w.indent)

/-- What a writer sends for one line. An empty line has no indentation. -/
def chunk (w : Writer) (line : String) : String :=
  if line.isEmpty then "\n" else w.margin ++ line ++ "\n"

/-- The writer for the lines inside a block. -/
def nested (w : Writer) : Writer :=
  { w with depth := w.depth + 1 }

end Writer

namespace Page

/-- The page after a line. -/
def writeLine (p : Page) (w : Writer) (line : String) : Page :=
  { text := p.text ++ w.chunk line, atBreak := line.isEmpty }

/-- The page after several lines. -/
def writeLines (p : Page) (w : Writer) (lines : List String) : Page :=
  lines.foldl (fun p line => p.writeLine w line) p

/-- The page at a break: after one blank line, unless it stands at a break already. -/
def endBlock (p : Page) (w : Writer) : Page :=
  if p.atBreak then p else p.writeLine w ""

end Page

end HostDecl
