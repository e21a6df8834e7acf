import HostDecl.Fault
import HostDecl.Text.Unicode

/-!
# Options of the command line

A command line is read in two passes. The first tells what each argument is: an option, perhaps
with a value attached to it, an operand, or the separator `--`, after which all arguments are
operands (`Arg.ofTexts`). The second takes options and operands in order and gives every option
that takes a value the next operand, unless one is attached (`Options.take`).

Long options may be shortened to any beginning that only one of them has. Letters stand behind one
dash; an option that takes no value can be followed by the letter of another.
-/

namespace HostDecl

/-! ## The options there are -/

/-- The options that take a value. -/
inductive Parameter where
  | backend
  | target
  | enumRepr
  | config
  | out
  deriving DecidableEq, Repr

/-- The options that are there or not. -/
inductive Switch where
  | version
  | skipUnsupported
  | listBackends
  | traceback
  deriving DecidableEq, Repr

inductive Flag where
  | help
  | switch (s : Switch)
  | parameter (p : Parameter)
  deriving DecidableEq, Repr

namespace Flag

def all : List Flag :=
  [help, switch .version, parameter .backend, parameter .target, parameter .enumRepr,
   parameter .config, parameter .out, switch .skipUnsupported, switch .listBackends,
   switch .traceback]

def long : Flag → String
  | help => "--help"
  | switch .version => "--version"
  | parameter .backend => "--backend"
  | parameter .target => "--target"
  | parameter .enumRepr => "--enum-repr"
  | parameter .config => "--config"
  | parameter .out => "--out"
  | switch .skipUnsupported => "--skip-unsupported"
  | switch .listBackends => "--list-backends"
  | switch .traceback => "--traceback"

def letter? : Flag → Option Char
  | help => some 'h'
  | parameter .backend => some 'b'
  | parameter .out => some 'o'
  | _ => none

def ofLetter? (c : Char) : Option Flag :=
  all.find? fun flag => flag.letter? == some c

/-- The flag with exactly that spelling, and whether it is spelled by its letter. -/
def ofSpelling? (cs : List Char) : Option (Flag × Bool) :=
  match cs with
  | ['-', c] => (ofLetter? c).map (·, true)
  | _ => (all.find? fun flag => flag.long.toList == cs).map (·, false)

/-- The flags whose long spelling begins like that. -/
def beginning (cs : List Char) : List Flag :=
  all.filter fun flag => cs.isPrefixOf flag.long.toList

end Flag

/-! ## Arguments -/

/-- Why a command line does not lead to a run: it asks for help, or it is misused. -/
inductive Usage where
  | help
  | misuse
  deriving DecidableEq, Repr

inductive Arg where
  | operand (text : String)
  | separator
  | option (flag : Flag) (byLetter : Bool) (attached : Option (List Char))
  | unknown
  deriving DecidableEq, Repr

namespace Arg

/-- The parts of a text before and after the first `=`. -/
def splitEquals? (cs : List Char) : Option (List Char × List Char) :=
  match cs.dropWhile (· != '=') with
  | [] => none
  | _ :: value => some (cs.takeWhile (· != '='), value)

/-- A text without the line feed at its end, if it has one there. -/
def dropLineFeed (cs : List Char) : List Char :=
  if cs.getLast? = some '\n' then cs.dropLast else cs

/-- A negative number: digits of any script, or such digits after a point and perhaps some before
it. One line feed may follow. -/
def isNegativeNumber (cs : List Char) : Bool :=
  match dropLineFeed cs with
  | '-' :: number =>
    match number.dropWhile isDecimalDigit with
    | [] => number != []
    | '.' :: places => places != [] && places.all isDecimalDigit
    | _ => false
  | _ => false

/-- A text behind one dash that is no option by itself. -/
def ofLetters (c : Char) (rest : List Char) : Option Arg :=
  (Flag.ofLetter? c).map fun flag => .option flag true (some rest)

/-- A text that begins like a long option; a beginning that several have is misuse. -/
def ofBeginning (cs : List Char) : Except Usage (Option Arg) :=
  let (name, attached) := match splitEquals? cs with
    | none => (cs, none)
    | some (name, value) => (name, some value)
  match Flag.beginning name with
  | [] => .ok none
  | [flag] => .ok (some (.option flag false attached))
  | _ => .error .misuse

/-- What an argument is that starts with a dash and is no option by its full spelling. -/
def ofDashed (cs : List Char) : Except Usage Arg := do
  let known ← match cs with
    | '-' :: '-' :: _ => ofBeginning cs
    | _ :: c :: rest => pure (ofLetters c rest)
    | _ => pure none
  match known with
  | some arg => pure arg
  | none =>
    if isNegativeNumber cs || cs.contains ' ' then pure (.operand (String.ofList cs))
    else pure .unknown

/-- What an argument in front of the separator is. -/
def ofText (text : String) : Except Usage Arg :=
  match text.toList with
  | [] | ['-'] => .ok (.operand text)
  | cs@('-' :: _) =>
    match Flag.ofSpelling? cs with
    | some (flag, byLetter) => .ok (.option flag byLetter none)
    | none =>
      match (splitEquals? cs).bind fun (name, value) =>
          (Flag.ofSpelling? name).map fun (flag, byLetter) =>
            .option flag byLetter (some value) with
      | some arg => .ok arg
      | none => ofDashed cs
  | _ => .ok (.operand text)

/-- What the arguments are. -/
def ofTexts : List String → Except Usage (List Arg)
  | [] => .ok []
  | text :: texts =>
    if text = "--" then .ok (.separator :: texts.map .operand)
    else do
      let arg ← ofText text
      let args ← ofTexts texts
      pure (arg :: args)

end Arg

/-! ## Taking the arguments in order -/

/-- The value of an option after the arguments. The separator as an attached value gives it, but
leaves it blank. -/
inductive OptionValue where
  | missing
  | blank
  | text (content : String)
  deriving DecidableEq, Repr

namespace OptionValue

def ofText (content : String) : OptionValue :=
  if content = "--" then blank else text content

/-- The text of an option that may be left out or blank; an empty text counts as none. -/
def nonEmpty? : OptionValue → Option String
  | missing | blank => none
  | text content => if content.isEmpty then none else some content

/-- The text of an option that may be left out, but not blank. -/
def notBlank : OptionValue → Except Fault (Option String)
  | missing => .ok none
  | blank => .error .blankOption
  | text content => .ok (some content)

end OptionValue

structure Options where
  module : Option String := none
  version : Bool := false
  backend : OptionValue := .missing
  target : OptionValue := .missing
  enumRepr : OptionValue := .missing
  config : OptionValue := .missing
  out : OptionValue := .missing
  skipUnsupported : Bool := false
  listBackends : Bool := false
  traceback : Bool := false
  deriving DecidableEq, Repr

namespace Options

def turnOn (o : Options) : Switch → Options
  | .version => { o with version := true }
  | .skipUnsupported => { o with skipUnsupported := true }
  | .listBackends => { o with listBackends := true }
  | .traceback => { o with traceback := true }

/-- The options with a value for a parameter, which replaces an earlier one. -/
def assign (o : Options) (p : Parameter) (value : OptionValue) : Options :=
  match p with
  | .backend => { o with backend := value }
  | .target => { o with target := value }
  | .enumRepr => { o with enumRepr := value }
  | .config => { o with config := value }
  | .out => { o with out := value }

/-- What letters that follow `-h` ask for. The first that takes a value takes the rest, or the next
operand if there is no rest; help is given before any of them counts. -/
def takeLetters (next : Option Arg) : List Char → Usage
  | [] => .help
  | c :: rest =>
    match Flag.ofLetter? c with
    | none => .misuse
    | some (.parameter _) =>
      match rest, next with
      | _ :: _, _ | [], some (.operand _) => .help
      | _, _ => .misuse
    | some _ => takeLetters next rest

/-- What an option for help leads to. -/
def takeHelp (byLetter : Bool) (attached : Option (List Char)) (next : Option Arg) : Usage :=
  match attached with
  | none => .help
  | some [] => .misuse
  | some letters => if byLetter then takeLetters next letters else .misuse

/-- The options after the arguments. `operandTaken` says that the one operand there may be has
been given or left out behind a separator, and `surplus` that something was given that has no
place, which is misuse unless help is asked for later. -/
def take (o : Options) (operandTaken surplus : Bool) : List Arg → Except Usage Options
  | [] => if surplus then .error .misuse else .ok o
  | .unknown :: args => take o operandTaken true args
  | .option .help byLetter attached :: args => .error (takeHelp byLetter attached args.head?)
  | .option (.switch s) _ none :: args => take (o.turnOn s) operandTaken surplus args
  | .option (.switch _) _ (some _) :: _ => .error .misuse
  | .option (.parameter p) _ (some value) :: args =>
    take (o.assign p (.ofText (String.ofList value))) operandTaken surplus args
  | .option (.parameter p) _ none :: .operand text :: args =>
    take (o.assign p (.text text)) operandTaken surplus args
  | .option (.parameter _) _ none :: _ => .error .misuse
  | .operand text :: .separator :: args =>
    if operandTaken then take o true true args
    else take { o with module := some text } true surplus args
  | .separator :: .operand text :: args =>
    if operandTaken then take o true true args
    else take { o with module := some text } true surplus args
  | .operand text :: args =>
    if operandTaken then take o true true args
    else take { o with module := some text } true surplus args
  | .separator :: args => take o true (surplus || operandTaken) args

/-- The options that a command line gives. -/
def ofArgs (texts : List String) : Except Usage Options := do
  take {} false false (← Arg.ofTexts texts)

end Options

end HostDecl
