import HostDecl.Toml.Blank

/-!
# Quoted text

Text stands in double quotes, where a backslash starts an escape, or in single quotes, where it
stands for itself. Three quotes of either sort hold text of several lines; a line end right after
them is not part of the text, and up to two more quotes before the closing ones are. In text of
several lines a backslash at the end of a line takes the line end and all blanks and line ends
after it away.

Every reader here is given what follows the opening quotes, and gives the text and what follows
the closing ones.
-/

namespace HostDecl

namespace Toml

/-! ## Escapes -/

def hexDigit? (c : Char) : Option Nat :=
  if '0' ≤ c ∧ c ≤ '9' then some (c.toNat - '0'.toNat)
  else if 'a' ≤ c ∧ c ≤ 'f' then some (c.toNat - 'a'.toNat + 10)
  else if 'A' ≤ c ∧ c ≤ 'F' then some (c.toNat - 'A'.toNat + 10)
  else none

/-- The number that hexadecimal digits write. -/
def hexNumber? (digits : List Char) : Option Nat :=
  digits.foldlM (fun n c => (hexDigit? c).map (16 * n + ·)) 0

/-- The character with a number, which must be one that a character has. -/
def charOfNumber? (n : Nat) : Option Char :=
  if h : n.isValidChar then some (Char.ofNatAux n h) else none

/-- The character that an escape of a fixed number of hexadecimal digits stands for. -/
def hexChar? (digits : List Char) : Option Char :=
  (hexNumber? digits).bind charOfNumber?

/-- The character that a letter after a backslash stands for. -/
def namedEscape? : Char → Option Char
  | 'b' => some '\x08'
  | 't' => some '\t'
  | 'n' => some '\n'
  | 'f' => some '\x0c'
  | 'r' => some '\r'
  | '"' => some '"'
  | '\\' => some '\\'
  | _ => none

/-- A result with one more character in front of the text. -/
def withChar (c : Char) (r : List Char × List Char) : List Char × List Char :=
  (c :: r.1, r.2)

/-! ## One line -/

def readBasic? : List Char → Option (List Char × List Char)
  | [] => none
  | '"' :: cs => some ([], cs)
  | '\\' :: 'u' :: a :: b :: c :: d :: cs => do
    let char ← hexChar? [a, b, c, d]
    withChar char <$> readBasic? cs
  | '\\' :: 'U' :: a :: b :: c :: d :: e :: f :: g :: h :: cs => do
    let char ← hexChar? [a, b, c, d, e, f, g, h]
    withChar char <$> readBasic? cs
  | '\\' :: c :: cs => do
    let char ← namedEscape? c
    withChar char <$> readBasic? cs
  | c :: cs => if isControl c || c = '\\' then none else withChar c <$> readBasic? cs

def readLiteral? : List Char → Option (List Char × List Char)
  | [] => none
  | c :: cs =>
    if c = '\'' then some ([], cs)
    else if isControl c then none
    else withChar c <$> readLiteral? cs

/-! ## Several lines -/

/-- What a backslash at the end of a line has taken away so far: nothing is under way, the line
end is still to come, or the line end has come. -/
inductive Trimming where
  | no
  | beforeLineEnd
  | afterLineEnd
  deriving DecidableEq, Repr

/-- The character may stand in text of several lines. -/
def isLineText (c : Char) : Bool :=
  c = '\n' || !isControl c

def readLongBasic? : Trimming → List Char → Option (List Char × List Char)
  | _, [] => none
  | .afterLineEnd, ' ' :: cs => readLongBasic? .afterLineEnd cs
  | .afterLineEnd, '\t' :: cs => readLongBasic? .afterLineEnd cs
  | .afterLineEnd, '\n' :: cs => readLongBasic? .afterLineEnd cs
  | .beforeLineEnd, ' ' :: cs => readLongBasic? .beforeLineEnd cs
  | .beforeLineEnd, '\t' :: cs => readLongBasic? .beforeLineEnd cs
  | .beforeLineEnd, '\n' :: cs => readLongBasic? .afterLineEnd cs
  | .beforeLineEnd, _ => none
  | _, '"' :: '"' :: '"' :: cs => some ([], cs)
  | _, '\\' :: '\n' :: cs => readLongBasic? .afterLineEnd cs
  | _, '\\' :: ' ' :: cs => readLongBasic? .beforeLineEnd cs
  | _, '\\' :: '\t' :: cs => readLongBasic? .beforeLineEnd cs
  | _, '\\' :: 'u' :: a :: b :: c :: d :: cs => do
    let char ← hexChar? [a, b, c, d]
    withChar char <$> readLongBasic? .no cs
  | _, '\\' :: 'U' :: a :: b :: c :: d :: e :: f :: g :: h :: cs => do
    let char ← hexChar? [a, b, c, d, e, f, g, h]
    withChar char <$> readLongBasic? .no cs
  | _, '\\' :: c :: cs => do
    let char ← namedEscape? c
    withChar char <$> readLongBasic? .no cs
  | _, c :: cs =>
    if isLineText c && c ≠ '\\' then withChar c <$> readLongBasic? .no cs else none

def readLongLiteral? : List Char → Option (List Char × List Char)
  | [] => none
  | '\'' :: '\'' :: '\'' :: cs => some ([], cs)
  | c :: cs => if isLineText c then withChar c <$> readLongLiteral? cs else none

/-- A line end right after the opening quotes is dropped. -/
def dropLineEnd : List Char → List Char
  | '\n' :: cs => cs
  | cs => cs

/-- Up to two quotes right after the closing ones belong to the text. -/
def withExtraQuotes (quote : Char) (r : List Char × List Char) : List Char × List Char :=
  let extra := (r.2.takeWhile (· = quote)).take 2
  (r.1 ++ extra, r.2.drop extra.length)

/-! ## All forms -/

/-- Quoted text of any form, from its first quote on. -/
def readQuoted? : List Char → Option (String × List Char)
  | '"' :: '"' :: '"' :: cs =>
    (readLongBasic? .no (dropLineEnd cs)).map fun r =>
      let (text, rest) := withExtraQuotes '"' r
      (String.ofList text, rest)
  | '\'' :: '\'' :: '\'' :: cs =>
    (readLongLiteral? (dropLineEnd cs)).map fun r =>
      let (text, rest) := withExtraQuotes '\'' r
      (String.ofList text, rest)
  | '"' :: cs => (readBasic? cs).map fun (text, rest) => (String.ofList text, rest)
  | '\'' :: cs => (readLiteral? cs).map fun (text, rest) => (String.ofList text, rest)
  | _ => none

/-- Quoted text on one line, from its first quote on, as keys have it. -/
def readQuotedLine? : List Char → Option (String × List Char)
  | '"' :: cs => (readBasic? cs).map fun (text, rest) => (String.ofList text, rest)
  | '\'' :: cs => (readLiteral? cs).map fun (text, rest) => (String.ofList text, rest)
  | _ => none

end Toml

end HostDecl
