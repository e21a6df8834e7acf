import HostDecl.Cli.Run

/-!
# The program

What the program does is decided by `run`. Here the files that a run can ask for are read before
it, and what it leaves behind is written after it.
-/

namespace HostDecl.Program

/-- The machine that declarations are laid out for where nothing says otherwise. -/
def machine : String := "x86_64-unknown-linux-gnu"

def usageText : String :=
  "usage: idlc [-h] [--version] [-b BACKEND] [--target TRIPLE] [--enum-repr ATOM]\n"
    ++ "            [--config FILE] [-o OUT] [--skip-unsupported] [--list-backends]\n"
    ++ "            [--traceback] [module]\n"

/-- The number that a system gives a fault; some calls give its negation, as a word. -/
def plainNumber (number : UInt32) : Nat :=
  if number < 0x80000000 then number.toNat else (0 - number).toNat

def faultOfNumber (number : UInt32) (reason : String) : DiskFault :=
  let n := plainNumber number
  (DiskFault.known.find? fun fault => fault.number = n).getD ⟨n, reason⟩

/-- What the system says about a file that it does not give or take. -/
def faultOf : IO.Error → DiskFault
  | .noFileOrDirectory .. => .missing
  | .inappropriateType _ number reason
  | .permissionDenied _ number reason
  | .resourceExhausted _ number reason
  | .invalidArgument _ number reason
  | .resourceVanished number reason
  | .hardwareFault number reason
  | .resourceBusy number reason
  | .otherError number reason => faultOfNumber number reason
  | other => ⟨5, toString other⟩

def readFile (path : Path) : IO (Path × Except DiskFault ByteArray) := do
  try
    return (path, .ok (← IO.FS.readBinFile path.text))
  catch e =>
    return (path, .error (faultOf e))

/-- The files that a run with these arguments can ask for. -/
def wanted (args : List String) : List Path :=
  match Options.ofArgs args with
  | .error _ => []
  | .ok o =>
    (Run.settingsName :: o.config.nonEmpty?.toList ++ o.module.toList).map Path.ofText

/-- The directory that the program works in. The system does not tell why there is none, and nearly
always it has been removed. -/
def workingDirectory : IO (Except DiskFault Path) := do
  try
    return .ok (.ofText (← IO.currentDir).toString)
  catch _ =>
    return .error .missing

/-- The disk as far as the arguments want it, before anything is written. -/
def readDisk (args : List String) : IO Disk := do
  let contents ← (wanted args).mapM readFile
  return {
    directory := ← workingDirectory
    read := fun path => (contents.lookup path).getD (.error .missing)
    refusal := fun _ => none }

/-- Does something with an outlet, and gives the refusal, if there is one. How much has been taken
by then is left to the system. -/
def refusalOf (taken : Option Nat) (action : IO (Option OutletFault)) :
    IO (Option OutletFault) := do
  try
    action
  catch e =>
    return some { fault := faultOf e, taken }

/-- Writes a text to a file, or gives what keeps it from being written. -/
def writeFile (path : Path) (text : String) : IO (Option OutletFault) :=
  refusalOf none do
    let handle ← IO.FS.Handle.mk path.text .write
    refusalOf (some 0) do
      handle.write text.toUTF8
      handle.flush
      return none

/-- Writes a text to the stream for output, or gives what keeps it from being written. -/
def writeStream (text : String) : IO (Option OutletFault) :=
  refusalOf (some 0) do
    let stream ← IO.getStdout
    stream.putStr text
    stream.flush
    return none

/-- Writes what a run leaves behind. A text that is refused makes it another run. -/
def settle (versions : Versions) (disk : Disk) (args : List String) : IO Ending := do
  let ending := run versions disk args
  let refused ← match ending with
    | .done { written := some (path, text), .. } => writeFile path text
    | .done outcome => writeStream outcome.stdout
    | _ => pure none
  match refused with
  | none => return ending
  | some refusal => return run versions { disk with refusal := fun _ => some refusal } args

end HostDecl.Program

open HostDecl Program

def main (args : List String) : IO UInt32 := do
  match ← settle { host := machine } (← readDisk args) args with
  | .done outcome =>
    IO.eprint outcome.stderr
    return outcome.status.code.toUInt32
  | .usage .help =>
    IO.print usageText
    return 0
  | .usage .misuse =>
    IO.eprint usageText
    return 2
  | .broken fault =>
    IO.eprintln fault.text
    return 1
