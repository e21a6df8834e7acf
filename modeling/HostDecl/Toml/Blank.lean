/-!
# Blanks, line ends and comments

Blanks are spaces and tabs. A line ends at a line feed, and a carriage return in front of one
belongs to it. A comment runs from `#` to the end of its line, and holds no control character but
tabs.
-/

namespace HostDecl

namespace Toml

def isBlank (c : Char) : Bool :=
  c = ' ' || c = '\t'

/-- Control characters that neither comments nor quoted text may hold; a line end is one. -/
def isControl (c : Char) : Bool :=
  (c.toNat < 0x20 && c ≠ '\t') || c.toNat = 0x7F

/-- The text with every line end written as one line feed. -/
def unifyLineEnds : List Char → List Char
  | '\r' :: '\n' :: cs => '\n' :: unifyLineEnds cs
  | c :: cs => c :: unifyLineEnds cs
  | [] => []

def skipBlanks (cs : List Char) : List Char :=
  cs.dropWhile isBlank

/-- What follows a comment, from its line end on. -/
def afterComment? : List Char → Option (List Char)
  | [] => some []
  | c :: cs =>
    if c = '\n' then some (c :: cs)
    else if isControl c then none
    else afterComment? cs

/-- What follows blanks, line ends and comments. The flag tells whether the text starts inside a
comment. -/
def skipLines? : Bool → List Char → Option (List Char)
  | _, [] => some []
  | false, c :: cs =>
    if isBlank c || c = '\n' then skipLines? false cs
    else if c = '#' then skipLines? true cs
    else some (c :: cs)
  | true, c :: cs =>
    if c = '\n' then skipLines? false cs
    else if isControl c then none
    else skipLines? true cs

/-- What follows the end of a statement: blanks, a comment, and a line end unless the text ends. -/
def afterLine? (cs : List Char) : Option (List Char) :=
  let rest? := match skipBlanks cs with
    | '#' :: rest => afterComment? rest
    | rest => some rest
  match rest? with
  | some [] => some []
  | some ('\n' :: rest) => some rest
  | _ => none

end Toml

end HostDecl
