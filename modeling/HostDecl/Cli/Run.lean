import HostDecl.Cli.Disk
import HostDecl.Cli.Options
import HostDecl.Config.Settings
import HostDecl.Generate
import HostDecl.Interface.Load
import HostDecl.Version

/-!
# Runs of the command line

A run reads the settings and one interface, writes the text of the interface for a host, and tells
what it has to say on the stream for messages. It writes all of the text or, where anything fails
before, nothing. Only where the writing itself fails, the text can be cut off.
-/

namespace HostDecl

inductive Status where
  | success
  | warned
  | failed
  deriving DecidableEq, Repr

def Status.code : Status → Nat
  | success => 0
  | warned => 1
  | failed => 2

/-- What a run that comes to its end leaves behind. -/
structure Outcome where
  status : Status
  stdout : String := ""
  stderr : String := ""
  /-- The file that is written and its text. -/
  written : Option (Path × String) := none
  /-- The text that could not be written in full. -/
  torn : Option Torn := none
  deriving DecidableEq, Repr

inductive Ending where
  | done (outcome : Outcome)
  /-- The command line asks for help or is misused. -/
  | usage (usage : Usage)
  /-- A fault without a message breaks the run off. -/
  | broken (fault : Fault)
  deriving DecidableEq, Repr

namespace Run

/-- The settings file that is read, if it is there, where none is named. -/
def settingsName : String := "idlc.toml"

/-- What comes between reading and writing. -/
inductive Failure where
  | disk (fault : DiskFault) (path : Option String)
  | fault (fault : Fault)
  deriving DecidableEq, Repr

/-- A value that comes out or a fault. -/
def orFault {α : Type} : Except Fault α → Except Failure α :=
  Except.mapError .fault

/-! ## Reading -/

/-- The text that a file holds. -/
def textOf (bytes : ByteArray) : Except Failure String :=
  match String.fromUTF8? bytes with
  | some text => .ok text
  | none => .error (.fault .notText)

/-- What a disk holds at a path that is shown as another one. -/
def readFile (disk : Disk) (path shown : Path) : Except Failure ByteArray :=
  if path.isPossible then (disk.read path).mapError fun fault => .disk fault (some shown.text)
  else .error (.fault .noSuchPath)

def settingsOfFile (machine : String) (disk : Disk) (path shown : Path) :
    Except Failure Settings := do
  let text ← textOf (← readFile disk path shown)
  orFault (Settings.ofText machine shown.text text)

/-- The settings of a named file, of the settings file in the working directory, or those of the
machine. -/
def loadSettings (machine : String) (disk : Disk) (named : Option String) :
    Except Failure Settings :=
  match named with
  | some text => settingsOfFile machine disk (.ofText text) (.ofText text)
  | none => do
    let directory ← disk.directory.mapError fun fault => .disk fault none
    let path := Path.ofText settingsName
    if disk.has path then
      settingsOfFile machine disk path (directory.child settingsName)
    else orFault (Settings.standard machine)

/-- The settings of a backend under the options, which stand above them. -/
def override (config : Config) (o : Options) : Except Fault Config := do
  let config ← config.withTarget (← o.target.notBlank)
  config.withEnumRepr (← o.enumRepr.notBlank)

/-- The interface that a file describes; it has the name of the file unless it has its own. -/
def loadInterface (disk : Disk) (path : Path) : Except Failure Interface := do
  let text ← textOf (← readFile disk path path)
  orFault (Interface.ofText path.text path.stem text)

/-- What a run generates. -/
structure Job where
  backend : String
  config : Config
  interface : Interface
  deriving DecidableEq, Repr

/-- The job of a run. -/
def loadJob (machine : String) (disk : Disk) (o : Options) (path : Path) :
    Except Failure Job := do
  let settings ← loadSettings machine disk o.config.nonEmpty?
  let config ← orFault (override settings.config o)
  let interface ← loadInterface disk path
  pure { backend := o.backend.nonEmpty?.getD settings.backend, config, interface }

/-- The text that a run writes, or why there is none, and the diagnostics on the way. -/
def produce (machine : String) (disk : Disk) (o : Options) (path : Path) :
    Except Failure String × Reporter :=
  match loadJob machine disk o path with
  | .error failure => (.error failure, { filename := path.text })
  | .ok job =>
    let (result, reporter) :=
      generate job.interface job.backend job.config o.skipUnsupported { filename := path.text }
    (orFault result, reporter)

/-! ## Endings -/

/-- Messages go to a stream that is no terminal. -/
def messages (reporter : Reporter) : String :=
  reporter.print {}

/-- What stands for the places that an internal fault came through. -/
def trace : String := "<traceback>\n"

/-- The ending of a run that has no text to write. The diagnostics are told before a fault, but not
before what the disk refuses. -/
def fail (o : Options) (reporter : Reporter) : Failure → Ending
  | .disk fault path =>
    .done { status := .failed, stderr := "error: " ++ fault.text path ++ "\n" }
  | .fault fault =>
    match fault.family? with
    | none => .broken fault
    | some .internal =>
      .done
        { status := .failed
          stderr := messages reporter ++ "internal error: " ++ fault.text ++ "\n"
            ++ if o.traceback then trace else "" }
    | some _ =>
      .done
        { status := .failed, stderr := messages reporter ++ "error: " ++ fault.text ++ "\n" }

/-- The line that sums up the diagnostics, if there are any. -/
def summaryLine (reporter : Reporter) : String :=
  if reporter.items.isEmpty then "" else "idlc: " ++ reporter.summary ++ "\n"

/-- Where a run writes its text: to the file that the options name, or else to the stream. -/
def outlet (o : Options) : Outlet :=
  match o.out.nonEmpty? with
  | none => .stream
  | some out => .file (.ofText out)

/-- The outcome of a run that has written its text. -/
def succeed (text : String) (outlet : Outlet) (reporter : Reporter) : Outcome :=
  let outcome : Outcome :=
    { status := if reporter.hasWarnings then .warned else .success
      stderr := messages reporter ++ summaryLine reporter }
  match outlet with
  | .stream => { outcome with stdout := text }
  | .file path => { outcome with written := some (path, text) }

/-- The outcome of a run whose text is refused. -/
def giveUp (text : String) (outlet : Outlet) (refusal : OutletFault) : Outcome where
  status := .failed
  stderr := "error: cannot write output: " ++ refusal.text outlet ++ "\n"
  torn := refusal.torn outlet text

/-- The ending of a run that has a text to write. -/
def finish (disk : Disk) (o : Options) (text : String) (reporter : Reporter) : Ending :=
  if (outlet o).isPossible then
    match disk.refusal (outlet o) with
    | none => .done (succeed text (outlet o) reporter)
    | some refusal => .done (giveUp text (outlet o) refusal)
  else .broken .noSuchPath

/-- A run that is asked for an interface. -/
def onInterface (machine : String) (disk : Disk) (o : Options) (path : Path) : Ending :=
  match produce machine disk o path with
  | (.error failure, reporter) => fail o reporter failure
  | (.ok text, reporter) => finish disk o text reporter

/-- A host and what it can declare besides types, in columns. -/
def hostLine (host : Host) : String :=
  let padding := String.ofList (List.replicate (6 - host.name.length) ' ')
  let abilities := host.capabilities
  host.name ++ padding ++ " "
    ++ (if abilities.isEmpty then "types only" else ", ".intercalate abilities) ++ "\n"

/-- What a run with these options does: it names versions, lists the hosts, or takes an
interface. -/
def withOptions (versions : Versions) (disk : Disk) (o : Options) : Ending :=
  if o.version then
    .done { status := .success, stderr := versions.banner false }
  else if o.listBackends then
    .done { status := .success, stdout := String.join (Host.all.map hostLine) }
  else
    match Settings.nonEmpty? o.module with
    | none => .done { status := .failed, stderr := "error: module file required\n" }
    | some text => onInterface versions.host disk o (.ofText text)

end Run

/-- A run of the command line on a disk. -/
def run (versions : Versions) (disk : Disk) (args : List String) : Ending :=
  match Options.ofArgs args with
  | .error usage => .usage usage
  | .ok o => Run.withOptions versions disk o

end HostDecl
