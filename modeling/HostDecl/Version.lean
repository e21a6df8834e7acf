import HostDecl.Text.Display

/-!
# Versions

The program names itself, the tools that decide its output and the machine it runs on in a banner
of two lines.
-/

namespace HostDecl

structure Versions where
  program : String := "0.1.0"
  development : Bool := false
  interpreter : String := "3.11.2"
  bindings : String := "0.50.0"
  llvm : List Nat := [20, 1, 8]
  host : String
  deriving DecidableEq, Repr

namespace Versions

/-- The version of the program; a version under development says so. -/
def programText (v : Versions) : String :=
  if v.development then v.program ++ " (dev)" else v.program

def llvmText (v : Versions) : String :=
  ".".intercalate (v.llvm.map toString)

/-- The banner, with emphasis on a terminal. -/
def banner (v : Versions) (terminal : Bool) : String :=
  let styled (style text : String) := if terminal then style ++ text ++ Style.reset else text
  styled Style.bold "idlc" ++ " • " ++ v.programText ++ "\n"
    ++ styled Style.dim ("Python " ++ v.interpreter ++ " • llvmlite " ++ v.bindings
      ++ " • LLVM " ++ v.llvmText ++ " • host " ++ v.host) ++ "\n"

end Versions

end HostDecl
