import HostDecl.Toml.Draft
import HostDecl.Toml.Quoted
import HostDecl.Toml.Scalar

/-!
# Reading TOML

A text is read statement by statement: headers, headers of elements, and values under keys. The
readers of things that nest go on only with a shorter text than the one they began with, which is
what makes them end; each of them takes at least one character, so none is stopped by this.

`parse` gives the table of a text. It fails at the first thing in the text that it cannot take,
which breaks a rule of the format or is an integer that is too long.
-/

namespace HostDecl

namespace Toml

/-- Why a text gives no table. -/
inductive Failure where
  | malformed
  | longInteger
  deriving DecidableEq, Repr

/-- What is read, or the failure of a text that breaks a rule. -/
def orMalformed {α : Type} : Option α → Except Failure α
  | some a => .ok a
  | none => .error .malformed

/-! ## Keys -/

def isKeyChar (c : Char) : Bool :=
  c.isUpper || c.isLower || c.isDigit || c = '-' || c = '_'

/-- One part of a key: bare or in quotes. -/
def readKeyPart? (cs : List Char) : Option (String × List Char) :=
  match cs.takeWhile isKeyChar with
  | [] => readQuotedLine? cs
  | bare => some (String.ofList bare, cs.dropWhile isKeyChar)

/-- A key of one or more parts with dots between them, and the blanks after it. -/
def readKey? (cs : List Char) : Option (Path × List Char) := do
  let (part, rest) ← readKeyPart? cs
  match skipBlanks rest with
  | '.' :: rest =>
    let next := skipBlanks rest
    if next.length < cs.length then
      let (parts, rest) ← readKey? next
      some (part :: parts, rest)
    else none
  | rest => some ([part], rest)
termination_by cs.length

/-! ## Values -/

-- The measure is a number and no pair, so the kernel can run the readers on a given text.
mutual

def readValue (cs : List Char) : Except Failure (Value × List Char) :=
  match cs with
  | '[' :: rest => do
    let next ← orMalformed (skipLines? false rest)
    if next.length ≤ rest.length then
      let (items, rest) ← readItems next
      pure (.array items, rest)
    else throw .malformed
  | '\x7b' :: rest =>
    match skipBlanks rest with
    | '\x7d' :: rest => .ok (.table [], rest)
    | next =>
      if next.length ≤ rest.length then do
        let (entries, rest) ← readMembers {} next
        pure (.table entries, rest)
      else .error .malformed
  | _ =>
    match readQuoted? cs with
    | some (text, rest) => .ok (.text text, rest)
    | none => do
      let (source, rest) ← orMalformed (readScalar? cs)
      if isLongInteger source.toList then throw .longInteger else pure (.plain source, rest)
termination_by 2 * cs.length

/-- The items of an array up to its closing bracket; a comma may follow the last one. -/
def readItems (cs : List Char) : Except Failure (List Value × List Char) :=
  match cs with
  | ']' :: rest => .ok ([], rest)
  | start => do
    let (item, rest) ← readValue start
    match ← orMalformed (skipLines? false rest) with
    | ']' :: rest => pure ([item], rest)
    | ',' :: rest =>
      let next ← orMalformed (skipLines? false rest)
      if next.length < start.length then
        let (items, rest) ← readItems next
        pure (item :: items, rest)
      else throw .malformed
    | _ => throw .malformed
termination_by 2 * cs.length + 1

/-- The members of an inline table up to its closing bracket, on one line. -/
def readMembers (d : Draft) (cs : List Char) : Except Failure (Table × List Char) := do
  let (key, rest) ← orMalformed (readKey? cs)
  match rest with
  | '=' :: rest =>
    let next := skipBlanks rest
    if next.length < cs.length then
      let (value, rest) ← readValue next
      let d ← orMalformed (d.assignInline? key value)
      match skipBlanks rest with
      | '\x7d' :: rest => pure (d.root, rest)
      | ',' :: rest =>
        let next := skipBlanks rest
        if next.length < cs.length then readMembers d next else throw .malformed
      | _ => throw .malformed
    else throw .malformed
  | _ => throw .malformed
termination_by 2 * cs.length

end

/-! ## Statements -/

/-- The key in a header and what follows the closing brackets. -/
def readHeader? (closing : List Char) (cs : List Char) : Option (Path × List Char) := do
  let (key, rest) ← readKey? (skipBlanks cs)
  let rest ← dropText? closing rest
  some (key, rest)

/-- The key in front of a value and what follows the sign between them. -/
def readAssigned? (cs : List Char) : Option (Path × List Char) := do
  let (key, rest) ← readKey? cs
  let rest ← dropText? ['='] rest
  some (key, rest)

/-- One statement: the draft and the current header after it, and the rest of its line. -/
def readStatement (d : Draft) (header : Path) (cs : List Char) :
    Except Failure (Draft × Path × List Char) :=
  match cs with
  | '\n' :: _ => .ok (d, header, cs)
  | '#' :: _ => .ok (d, header, cs)
  | '[' :: '[' :: rest => do
    let (path, rest) ← orMalformed (readHeader? [']', ']'] rest)
    let d ← orMalformed (d.openElement? path)
    pure (d, path, rest)
  | '[' :: rest => do
    let (path, rest) ← orMalformed (readHeader? [']'] rest)
    let d ← orMalformed (d.openTable? path)
    pure (d, path, rest)
  | _ => do
    let (key, rest) ← orMalformed (readAssigned? cs)
    let (value, rest) ← readValue (skipBlanks rest)
    let d ← orMalformed (d.assign? header key value)
    pure (d, header, rest)

/-- All statements of a text. -/
def readStatements (d : Draft) (header : Path) (cs : List Char) : Except Failure Table :=
  match skipBlanks cs with
  | [] => .ok d.root
  | start => do
    let (d, header, rest) ← readStatement d header start
    let next ← orMalformed (afterLine? rest)
    if next.length < cs.length then readStatements d header next else throw .malformed
termination_by cs.length

/-- The table of a text. -/
def parse (text : String) : Except Failure Table :=
  readStatements {} [] (unifyLineEnds text.toList)

end Toml

end HostDecl
