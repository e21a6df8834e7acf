import HostDecl.AtomTable
import HostDecl.Proofs.Layout.DataLayout
import HostDecl.Proofs.Name.Spelling

/-!
# A reader of C headers

A header is read from top to bottom, line by line, by what its lines say and nothing else. A
`typedef` gives its name the layout of a type, a struct gets the layout of its members by the rules
of C, and a type that is used has to be an atom's or one that was introduced before. Nothing can be
introduced twice. The static assertions behind a struct are kept with it, to be compared with the
layout that was computed.

The reader knows as much of C as it takes to read such headers. Enumerators have no layout, so the
lines of an `enum` are passed over up to its end. Of a prototype only the types count.
-/

namespace HostDecl

namespace Header

/-! ## Statements -/

/-- A type, as C writes it. -/
inductive CType where
  | named (name : List Char)
  | struct (tag : List Char)
  deriving DecidableEq, Repr

/-- The word in front of a tag. -/
def structWord : List Char :=
  ['s', 't', 'r', 'u', 'c', 't']

def CType.text : CType → List Char
  | .named name => name
  | .struct tag => structWord ++ ' ' :: tag

/-- The type without values. -/
def voidType : CType :=
  .named "void".toList

/-- A static assertion. -/
inductive Assertion where
  | size (type : CType) (n : Nat)
  | align (type : CType) (n : Nat)
  | offset (type : CType) (field : List Char) (n : Nat)
  deriving DecidableEq, Repr

/-- What a line says. -/
inductive Statement where
  | nothing
  | typedef (type : CType) (name : List Char)
  | openStruct (tag : List Char)
  | member (type : CType) (name : List Char)
  | openEnum
  | close
  | assert (assertion : Assertion)
  | prototype (types : List CType)
  | unreadable
  deriving DecidableEq, Repr

/-- The word at the front of a text, and what follows it. -/
def word (cs : List Char) : List Char × List Char :=
  (cs.takeWhile isIdentChar, cs.dropWhile isIdentChar)

def skipBlanks (cs : List Char) : List Char :=
  cs.dropWhile (· = ' ')

/-- What follows the given front of a text. -/
def after? (front cs : List Char) : Option (List Char) :=
  if front <+: cs then some (cs.drop front.length) else none

/-- The type at the front of a text, and what follows it. -/
def typeFront (cs : List Char) : CType × List Char :=
  let (first, rest) := word cs
  if first = structWord then
    let (tag, rest) := word (skipBlanks rest)
    (.struct tag, rest)
  else
    (.named first, rest)

/-- The type of a parameter. A part without a letter or a digit in front has none. -/
def paramType? (param : List Char) : Option CType :=
  match skipBlanks param with
  | [] => none
  | c :: cs => if isWordChar c then some (typeFront (c :: cs)).1 else none

/-- A `typedef`, after the keyword. -/
def typedef (cs : List Char) : Statement :=
  let (type, rest) := typeFront (skipBlanks cs)
  let (name, rest) := word (skipBlanks rest)
  match rest with
  | ';' :: _ => .typedef type name
  | _ => .unreadable

/-- The number behind what an assertion is about. -/
def assertedValue? (cs : List Char) : Option Nat :=
  match after? ") == ".toList cs with
  | none => none
  | some rest => number? (rest.takeWhile Char.isDigit)

/-- What is asserted with an operator about a type, given what follows the type. -/
def measured? (operator : List Char) (type : CType) (cs : List Char) : Option Assertion :=
  if operator = "sizeof".toList then
    (assertedValue? cs).map (.size type)
  else if operator = "_Alignof".toList then
    (assertedValue? cs).map (.align type)
  else if operator = "offsetof".toList then
    let (field, rest) := word (skipBlanks (cs.drop 1))
    (assertedValue? rest).map (.offset type field)
  else
    none

def Statement.ofAssertion? : Option Assertion → Statement
  | some assertion => .assert assertion
  | none => .unreadable

/-- A static assertion, after the keyword. -/
def staticAssert (cs : List Char) : Statement :=
  let (operator, rest) := word (cs.drop 1)
  let (type, rest) := typeFront (rest.drop 1)
  .ofAssertion? (measured? operator type rest)

/-- A line that does not start with a word. -/
def mark : List Char → Statement
  | [] | '/' :: '/' :: _ | '#' :: _ => .nothing
  | ['\x7d', ';'] => .close
  | _ => .unreadable

/-- The types of some parameters. -/
def paramTypes (params : List Char) : List CType :=
  (params.splitOn ',').filterMap paramType?

/-- A line that starts with a type. -/
def declaration (cs : List Char) : Statement :=
  let (type, rest) := typeFront cs
  let (name, rest) := word (skipBlanks rest)
  match rest, type, name with
  | ['\x7b'], .struct tag, [] => .openStruct tag
  | [';'], _, _ => .member type name
  | '(' :: params, _, _ => .prototype (type :: paramTypes params)
  | _, _, _ => .unreadable

/-- What a line says. -/
def statement (line : List Char) : Statement :=
  let cs := skipBlanks line
  let (first, rest) := word cs
  if first = [] then
    mark cs
  else if first = "typedef".toList then
    typedef rest
  else if first = "enum".toList then
    .openEnum
  else if first = "_Static_assert".toList then
    staticAssert rest
  else
    declaration cs

/-! ## Reading -/

/-- A struct that has been read: its layout as computed, and what was asserted about it. -/
structure StructRead where
  tag : List Char
  fields : List (List Char)
  layout : Layout
  asserted : List Assertion := []
  deriving DecidableEq, Repr

/-- The struct with some more assertions. -/
def StructRead.claim (s : StructRead) (assertions : List Assertion) : StructRead :=
  { s with asserted := s.asserted ++ assertions }

/-- The assertions that the layout calls for, one for each member. -/
def StructRead.expected (s : StructRead) : List Assertion :=
  [.size (.struct s.tag) s.layout.size, .align (.struct s.tag) s.layout.align] ++
    (s.fields.zip s.layout.offsets).map fun (field, offset) => .offset (.struct s.tag) field offset

/-- Where a reader stands: outside, inside a struct with some members, or inside an `enum`. -/
inductive Place where
  | outside
  | inStruct (tag : List Char) (members : List (List Char × Layout))
  | inEnum
  deriving DecidableEq, Repr

/-- A reader with the types and structs that it has read, the last ones in front. -/
structure State where
  place : Place := .outside
  known : List (CType × Layout)
  structs : List StructRead := []
  deriving DecidableEq, Repr

namespace State

/-- The same reader at another place. -/
def moved (s : State) (place : Place) : State :=
  { s with place }

/-- The same reader with other structs. -/
def holding (s : State) (structs : List StructRead) : State :=
  { s with structs }

/-- The same reader with one more type. -/
def knowing (s : State) (type : CType) (layout : Layout) : State :=
  { s with known := (type, layout) :: s.known }

/-- Introduce a type, which must not be known. -/
def introduce (s : State) (type : CType) (layout : Layout) : Option State :=
  if (s.known.lookup type).isSome then none else some (s.knowing type layout)

/-- The end of a struct. -/
def finish (s : State) (tag : List Char) (members : List (List Char × Layout)) : Option State :=
  let layout := aggregate (members.map Prod.snd)
  let read : StructRead := { tag, fields := members.map Prod.fst, layout }
  ((s.moved .outside).holding (read :: s.structs)).introduce (.struct tag) layout

/-- An assertion about the last struct. -/
def assert (s : State) (assertion : Assertion) : Option State :=
  match s.structs with
  | [] => none
  | last :: structs => some (s.holding (last.claim [assertion] :: structs))

/-- The type is known, or is the one without values. -/
def admits (s : State) (type : CType) : Bool :=
  type = voidType || (s.known.lookup type).isSome

def step (s : State) (statement : Statement) : Option State :=
  match s.place, statement with
  | .outside, .nothing => some s
  | .outside, .typedef type name => do
    let layout ← s.known.lookup type
    s.introduce (.named name) layout
  | .outside, .openStruct tag => some (s.moved (.inStruct tag []))
  | .outside, .openEnum => some (s.moved .inEnum)
  | .outside, .assert assertion => s.assert assertion
  | .outside, .prototype types => if types.all s.admits then some s else none
  | .inStruct tag members, .member type name => do
    let layout ← s.known.lookup type
    some (s.moved (.inStruct tag (members ++ [(name, layout)])))
  | .inStruct tag members, .close => s.finish tag members
  | .inEnum, .close => some (s.moved .outside)
  | .inEnum, _ => some s
  | _, _ => none

/-- Read some lines. -/
def readLines (s : State) (lines : List (List Char)) : Option State :=
  lines.foldlM (fun s line => s.step (statement line)) s

section

variable {s s' : State} {type : CType} {name tag line : List Char} {layout : Layout}
  {members : List (List Char × Layout)}

theorem introduce_eq (h : s.known.lookup type = none) :
    s.introduce type layout = some (s.knowing type layout) := by
  rw [introduce, h]
  rfl

theorem step_nothing (hs : s.place = .outside) : s.step .nothing = some s := by
  unfold step
  rw [hs]

theorem step_typedef (hs : s.place = .outside) (h : s.known.lookup type = some layout) :
    s.step (.typedef type name) = s.introduce (.named name) layout := by
  unfold step
  rw [hs]
  dsimp only
  rw [h]
  rfl

theorem step_prototype (hs : s.place = .outside) {types : List CType}
    (h : ∀ type ∈ types, s.admits type = true) : s.step (.prototype types) = some s := by
  unfold step
  rw [hs]
  exact if_pos (List.all_eq_true.mpr h)

theorem step_member (hs : s.place = .inStruct tag members)
    (h : s.known.lookup type = some layout) :
    s.step (.member type name) = some (s.moved (.inStruct tag (members ++ [(name, layout)]))) := by
  unfold step
  rw [hs]
  dsimp only
  rw [h]
  rfl

/-- The end of a struct that is not known yet. -/
theorem step_close (hs : s.place = .inStruct tag members)
    (h : s.known.lookup (.struct tag) = none) :
    s.step .close = some (((s.moved .outside).holding
      ({ tag, fields := members.map Prod.fst, layout := aggregate (members.map Prod.snd) } ::
        s.structs)).knowing (.struct tag) (aggregate (members.map Prod.snd))) := by
  unfold step
  rw [hs]
  exact introduce_eq h

/-- Going somewhere and coming back. -/
theorem moved_moved (hs : s.place = .outside) (place : Place) :
    (s.moved place).moved .outside = s := by
  rw [moved, moved, ← hs]

theorem holding_knowing (structs structs' : List StructRead) :
    ((s.holding structs).knowing type layout).holding structs' =
      (s.holding structs').knowing type layout := rfl

theorem step_assert (hs : s.place = .outside) {last : StructRead} {structs : List StructRead}
    (h : s.structs = last :: structs) (assertion : Assertion) :
    s.step (.assert assertion) = some (s.holding (last.claim [assertion] :: structs)) := by
  unfold step
  rw [hs]
  dsimp only
  rw [assert, h]

theorem step_inEnum (hs : s.place = .inEnum) {statement : Statement} (h : statement ≠ .close) :
    s.step statement = some s := by
  unfold step
  rw [hs]
  cases statement <;> first | rfl | exact (h rfl).elim

theorem readLines_cons (lines : List (List Char)) (h : s.step (statement line) = some s') :
    s.readLines (line :: lines) = s'.readLines lines := by
  rw [readLines, List.foldlM_cons, h]
  rfl

theorem readLines_append {lines : List (List Char)} (lines' : List (List Char))
    (h : s.readLines lines = some s') : s.readLines (lines ++ lines') = s'.readLines lines' := by
  rw [readLines] at h
  rw [readLines, List.foldlM_append, h]
  rfl

end

end State

/-- The types of atoms, with the layouts that the target gives them. -/
def atomTypes (dataLayout : String) : List (CType × Layout) :=
  Atom.all.map fun a =>
    (.named (AtomTable.c.token a).toList, scalar dataLayout a.scalarKind a.bits)

/-- A line that ends with a backslash is continued by the next one. -/
def splice (line : List Char) : List (List Char) → List (List Char)
  | [] => [line]
  | next :: lines =>
    if line.getLast? = some '\\' then (line.dropLast ++ next) :: lines else line :: next :: lines

/-- The structs of a header, if everything in it can be read. -/
def read (dataLayout text : String) : Option (List StructRead) := do
  let lines := (text.toList.splitOn '\n').foldr splice []
  let s ← State.readLines { known := atomTypes dataLayout } lines
  if s.place = .outside then some s.structs.reverse else none

end Header

end HostDecl
