/-!
# Numbers, truth values, dates and times

The forms that a value without quotes or brackets can have. Each recogniser gives what follows
the value. Integers may be decimal, with a sign, or hexadecimal, octal or binary; an underscore
can stand between two digits. A decimal integer is taken only up to a length. A date is a day of
the calendar, a time has seconds, and an offset follows only a date with a time.
-/

namespace HostDecl

namespace Toml

/-- What follows a fixed text. -/
def dropText? : List Char → List Char → Option (List Char)
  | [], cs => some cs
  | t :: ts, c :: cs => if t = c then dropText? ts cs else none
  | _ :: _, [] => none

/-- What follows any of several forms; the first that fits counts. -/
def firstOf (forms : List (List Char → Option (List Char))) (cs : List Char) :
    Option (List Char) :=
  forms.findSome? fun form => form cs

/-- What follows a form, or the text itself if the form does not fit. -/
def optionally (form : List Char → Option (List Char)) (cs : List Char) : List Char :=
  (form cs).getD cs

/-! ## Numbers -/

def isHexDigit (c : Char) : Bool :=
  c.isDigit || ('a' ≤ c && c ≤ 'f') || ('A' ≤ c && c ≤ 'F')

def isOctalDigit (c : Char) : Bool :=
  '0' ≤ c && c ≤ '7'

def isBinaryDigit (c : Char) : Bool :=
  c = '0' || c = '1'

/-- What follows more digits, each of them after an underscore or not. -/
def moreDigits (digit : Char → Bool) : List Char → List Char
  | '_' :: c :: cs => if digit c then moreDigits digit cs else '_' :: c :: cs
  | c :: cs => if digit c then moreDigits digit cs else c :: cs
  | [] => []

def afterDigits? (digit : Char → Bool) : List Char → Option (List Char)
  | c :: cs => if digit c then some (moreDigits digit cs) else none
  | [] => none

/-- A number in another base than ten. -/
def afterBased? : List Char → Option (List Char)
  | '0' :: 'x' :: cs => afterDigits? isHexDigit cs
  | '0' :: 'o' :: cs => afterDigits? isOctalDigit cs
  | '0' :: 'b' :: cs => afterDigits? isBinaryDigit cs
  | _ => none

def afterSign : List Char → List Char
  | '+' :: cs => cs
  | '-' :: cs => cs
  | cs => cs

/-- The whole part of a decimal number: zero, or digits that do not start with zero. -/
def afterWhole? : List Char → Option (List Char)
  | '0' :: cs => some cs
  | cs => afterDigits? Char.isDigit cs

def afterFraction? : List Char → Option (List Char)
  | '.' :: cs => afterDigits? Char.isDigit cs
  | _ => none

def afterExponent? : List Char → Option (List Char)
  | 'e' :: cs => afterDigits? Char.isDigit (afterSign cs)
  | 'E' :: cs => afterDigits? Char.isDigit (afterSign cs)
  | _ => none

def afterDecimal? (cs : List Char) : Option (List Char) :=
  (afterWhole? (afterSign cs)).map fun rest =>
    optionally afterExponent? (optionally afterFraction? rest)

/-- The source of an integer in decimal: it has a whole part and nothing else. -/
def isDecimalInteger (source : List Char) : Bool :=
  afterWhole? (afterSign source) == some []

/-- The most digits that a decimal integer may have. -/
def integerLimit : Nat := 4300

/-- The source of a decimal integer with more digits than it may have. -/
def isLongInteger (source : List Char) : Bool :=
  isDecimalInteger source && integerLimit < source.countP Char.isDigit

/-- The floating-point values that are no numbers, with a sign or without. -/
def afterSpecial? (cs : List Char) : Option (List Char) :=
  firstOf [dropText? ['i', 'n', 'f'], dropText? ['n', 'a', 'n']] (afterSign cs)

/-! ## Dates and times -/

/-- A number of exactly so many digits, and what follows. -/
def readDigits? : Nat → Nat → List Char → Option (Nat × List Char)
  | 0, n, cs => some (n, cs)
  | count + 1, n, c :: cs =>
    if c.isDigit then readDigits? count (10 * n + (c.toNat - '0'.toNat)) cs else none
  | _ + 1, _, [] => none

/-- A number of two digits up to a bound, and what follows. -/
def readTwo? (bound : Nat) (cs : List Char) : Option (Nat × List Char) := do
  let (n, rest) ← readDigits? 2 0 cs
  if n ≤ bound then some (n, rest) else none

def isLeapYear (year : Nat) : Bool :=
  year % 4 = 0 && (year % 100 ≠ 0 || year % 400 = 0)

def daysOfMonth (year month : Nat) : Nat :=
  if month = 2 then (if isLeapYear year then 29 else 28)
  else if month ∈ [4, 6, 9, 11] then 30
  else 31

/-- Years start at one. -/
def isDate (year month day : Nat) : Bool :=
  1 ≤ year && 1 ≤ month && month ≤ 12 && 1 ≤ day && day ≤ daysOfMonth year month

def afterDate? (cs : List Char) : Option (List Char) := do
  let (year, rest) ← readDigits? 4 0 cs
  let rest ← dropText? ['-'] rest
  let (month, rest) ← readTwo? 12 rest
  let rest ← dropText? ['-'] rest
  let (day, rest) ← readTwo? 31 rest
  if isDate year month day then some rest else none

/-- Decimals of a second. -/
def afterDecimals? : List Char → Option (List Char)
  | '.' :: c :: cs => if c.isDigit then some (cs.dropWhile Char.isDigit) else none
  | _ => none

def afterTime? (cs : List Char) : Option (List Char) := do
  let (_, rest) ← readTwo? 23 cs
  let rest ← dropText? [':'] rest
  let (_, rest) ← readTwo? 59 rest
  let rest ← dropText? [':'] rest
  let (_, rest) ← readTwo? 59 rest
  pure (optionally afterDecimals? rest)

def afterOffset? : List Char → Option (List Char)
  | 'Z' :: cs => some cs
  | 'z' :: cs => some cs
  | sign :: cs =>
    if sign = '+' ∨ sign = '-' then do
      let (_, rest) ← readTwo? 23 cs
      let rest ← dropText? [':'] rest
      let (_, rest) ← readTwo? 59 rest
      pure rest
    else none
  | [] => none

/-- A time after a date, with its offset. -/
def afterDayTime? : List Char → Option (List Char)
  | c :: cs =>
    if c = 'T' ∨ c = 't' ∨ c = ' ' then (afterTime? cs).map (optionally afterOffset?) else none
  | [] => none

def afterMoment? (cs : List Char) : Option (List Char) :=
  (afterDate? cs).map (optionally afterDayTime?)

/-! ## All forms -/

/-- What follows a value without quotes or brackets. -/
def afterScalar? : List Char → Option (List Char) :=
  firstOf
    [dropText? ['t', 'r', 'u', 'e'], dropText? ['f', 'a', 'l', 's', 'e'], afterMoment?,
     afterTime?, afterBased?, afterDecimal?, afterSpecial?]

/-- A value without quotes or brackets as it is written, and what follows. -/
def readScalar? (cs : List Char) : Option (String × List Char) :=
  (afterScalar? cs).map fun rest =>
    (String.ofList (cs.take (cs.length - rest.length)), rest)

end Toml

end HostDecl
