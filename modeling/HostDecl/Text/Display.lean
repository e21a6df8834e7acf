import HostDecl.Text.Unicode

/-!
# Text that is shown

A piece of text that is shown inside a message stands in single quotes, or in double quotes where
it holds a single quote and no double one. Inside, the quote in use and the backslash have a
backslash before them, a tab and line ends are written by name, and other characters that do not
print are written by number; everything else stands for itself.

A terminal shows text in a colour or with an emphasis between an escape sequence that starts it and
one that takes it away (`Style`).
-/

namespace HostDecl

/-- The number in hexadecimal, with leading zeros up to `width` digits. -/
def hexPadded (width n : Nat) : List Char :=
  let digits := Nat.toDigits 16 n
  List.replicate (width - digits.length) '0' ++ digits

/-- A character inside text that stands in the given quotes. -/
def quotedChar (quote c : Char) : List Char :=
  if c = quote ∨ c = '\\' then ['\\', c]
  else if c = '\t' then ['\\', 't']
  else if c = '\n' then ['\\', 'n']
  else if c = '\r' then ['\\', 'r']
  else if c.toNat < 0x20 ∨ c.toNat = 0x7F then '\\' :: 'x' :: hexPadded 2 c.toNat
  else if isHidden c then
    if c.toNat < 0x100 then '\\' :: 'x' :: hexPadded 2 c.toNat
    else if c.toNat < 0x10000 then '\\' :: 'u' :: hexPadded 4 c.toNat
    else '\\' :: 'U' :: hexPadded 8 c.toNat
  else [c]

/-- The quotes around a text: single ones, unless only double ones need no backslash. -/
def quoteFor (cs : List Char) : Char :=
  if cs.contains '\'' && !cs.contains '"' then '"' else '\''

/-- A text in quotes. -/
def quoted (text : String) : String :=
  let cs := text.toList
  let quote := quoteFor cs
  String.ofList (quote :: cs.flatMap (quotedChar quote) ++ [quote])

namespace Style

def reset : String := "\x1b[0m"

def bold : String := "\x1b[1m"

def dim : String := "\x1b[2m"

def red : String := "\x1b[31m"

def yellow : String := "\x1b[33m"

def cyan : String := "\x1b[36m"

end Style

end HostDecl
