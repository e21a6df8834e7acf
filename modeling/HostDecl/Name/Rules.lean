import HostDecl.Name.Words

/-!
# Naming rules of the hosts

A style joins the words of a name again: `CamelCase` capitalises each word and writes them side
by side, `snake_case` and `SHOUTY_SNAKE_CASE` put an underscore between lower-case or upper-case
words. A name that holds no word has the empty text in every style.

A host has a style for each role that a name plays, a set of reserved words, and a way to step
around a reserved word. `Rules.apply` turns a declared name into the host's spelling; a name
without any word in it is kept as it was declared. Rust, C and LLVM IR have their rules here.
-/

namespace HostDecl

/-! ## Styles -/

/-- How a host joins the words of a name. -/
inductive CaseStyle where
  | camel
  | snake
  | shouty
  deriving DecidableEq, Repr

/-- The first letter in upper case, the others in lower case. -/
def capitalise : List Char → List Char
  | [] => []
  | c :: cs => c.toUpper :: cs.map Char.toLower

/-- Words side by side, an underscore between each two. -/
def underscored : List (List Char) → List Char
  | [] => []
  | [w] => w
  | w :: ws => w ++ '_' :: underscored ws

/-- The words written in a style. -/
def CaseStyle.join : CaseStyle → List (List Char) → List Char
  | .camel, ws => ws.flatMap capitalise
  | .snake, ws => underscored (ws.map fun w => w.map Char.toLower)
  | .shouty, ws => underscored (ws.map fun w => w.map Char.toUpper)

/-- The name rewritten in a style. -/
def CaseStyle.convert (style : CaseStyle) (name : String) : String :=
  String.ofList (style.join (words name.toList))

/-! ## Roles and reserved words -/

/-- What a name stands for in a declaration. -/
inductive Role where
  | type
  | field
  | variant
  | function
  deriving DecidableEq, Repr

/-- How a host writes a name that is one of its reserved words. -/
inductive Escape where
  | asIs
  | underscore
  | raw
  deriving DecidableEq, Repr

/-- Reserved words of Rust that `r#` cannot turn into names. -/
def notRaw : List String :=
  ["crate", "self", "super", "Self"]

/-- The escaped form of a reserved word. -/
def Escape.apply : Escape → String → String
  | .asIs, name => name
  | .underscore, name => name ++ "_"
  | .raw, name => if name ∈ notRaw then name ++ "_" else "r#" ++ name

/-- The naming rules of a host. -/
structure Rules where
  typeCase : CaseStyle
  fieldCase : CaseStyle
  variantCase : CaseStyle
  functionCase : CaseStyle
  reserved : List String := []
  escape : Escape := .asIs
  deriving Repr

namespace Rules

/-- The style for a role. -/
def caseFor (rules : Rules) : Role → CaseStyle
  | .type => rules.typeCase
  | .field => rules.fieldCase
  | .variant => rules.variantCase
  | .function => rules.functionCase

/-- The name in the style of its role; a name without words stays as it is. -/
def convert (rules : Rules) (name : String) (role : Role) : String :=
  let converted := (rules.caseFor role).convert name
  if converted.isEmpty then name else converted

/-- The host's spelling of a declared name. -/
def apply (rules : Rules) (name : String) (role : Role) : String :=
  let converted := rules.convert name role
  if converted ∈ rules.reserved then rules.escape.apply converted else converted

def typeName (rules : Rules) (name : String) : String :=
  rules.apply name .type

def fieldName (rules : Rules) (name : String) : String :=
  rules.apply name .field

def variantName (rules : Rules) (name : String) : String :=
  rules.apply name .variant

def functionName (rules : Rules) (name : String) : String :=
  rules.apply name .function

/-! ## The hosts -/

def rustReserved : List String :=
  ["as", "async", "await", "break", "const", "continue", "crate", "dyn", "else",
   "enum", "extern", "false", "fn", "for", "if", "impl", "in", "let", "loop",
   "match", "mod", "move", "mut", "pub", "ref", "return", "static", "struct",
   "trait", "true", "type", "unsafe", "use", "where", "while", "abstract",
   "become", "box", "do", "final", "macro", "override", "priv", "try",
   "typeof", "unsized", "virtual", "yield"]

def cReserved : List String :=
  ["auto", "bool", "break", "case", "char", "const", "continue", "default", "do",
   "double", "else", "enum", "extern", "float", "for", "goto", "if", "inline",
   "int", "long", "register", "restrict", "return", "short", "signed", "sizeof",
   "static", "struct", "switch", "typedef", "union", "unsigned", "void",
   "volatile", "while"]

def rust : Rules where
  typeCase := .camel
  fieldCase := .snake
  variantCase := .camel
  functionCase := .snake
  reserved := rustReserved ++ notRaw
  escape := .raw

def c : Rules where
  typeCase := .snake
  fieldCase := .snake
  variantCase := .shouty
  functionCase := .snake
  reserved := cReserved
  escape := .underscore

/-- LLVM IR quotes every name, so no word is reserved. -/
def llvm : Rules where
  typeCase := .camel
  fieldCase := .snake
  variantCase := .camel
  functionCase := .snake

end Rules

end HostDecl
