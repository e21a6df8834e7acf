/-!
# Paths

A path is a root and the names on the way from there. Reading one drops empty names and the name
`.`, so that a path has one text; `..` is kept, because where it leads depends on the disk.
-/

namespace HostDecl

/-- Where a path starts: at the working directory, at the root, or at the root of another
system of names, which two slashes ask for. -/
inductive PathRoot where
  | relative
  | slash
  | doubleSlash
  deriving DecidableEq, Repr

def PathRoot.text : PathRoot → String
  | relative => ""
  | slash => "/"
  | doubleSlash => "//"

/-- The root that a text starts with; three slashes and more are one. -/
def PathRoot.ofChars (cs : List Char) : PathRoot :=
  match (cs.takeWhile (· == '/')).length with
  | 0 => relative
  | 2 => doubleSlash
  | _ => slash

structure Path where
  root : PathRoot
  names : List String
  deriving DecidableEq, Repr

namespace Path

/-- What stands between slashes. -/
def segments : List Char → List (List Char)
  | [] => [[]]
  | c :: cs =>
    if c = '/' then [] :: segments cs
    else match segments cs with
      | [] => [[c]]
      | s :: ss => (c :: s) :: ss

/-- A segment that names a step on the way. -/
def isStep (segment : List Char) : Bool :=
  segment != [] && segment != ['.']

def ofText (text : String) : Path :=
  let cs := text.toList
  { root := .ofChars cs, names := ((segments cs).filter isStep).map String.ofList }

/-- The text of a path; a path of no steps is the place where it starts. -/
def text (p : Path) : String :=
  if p.root = .relative ∧ p.names = [] then "."
  else p.root.text ++ "/".intercalate p.names

/-- A path that a file can have. No system takes the character NUL in a name. -/
def isPossible (p : Path) : Bool :=
  !p.text.toList.contains '\x00'

/-- The path of something in a directory. -/
def child (p : Path) (name : String) : Path :=
  { p with names := p.names ++ [name] }

/-- A file name without its last suffix. A dot at either end starts no suffix. -/
def dropSuffix (name : List Char) : List Char :=
  if name.getLast? = some '.' then name
  else match name.reverse.dropWhile (· != '.') with
    | [] | [_] => name
    | _ :: stem => stem.reverse

/-- The last name on the way without its suffix. -/
def stem (p : Path) : String :=
  String.ofList (dropSuffix ((p.names.getLast?.getD "").toList))

end Path

end HostDecl
