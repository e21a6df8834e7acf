import HostDecl.Cli.Path
import HostDecl.Text.Display

/-!
# Disks

What a run can see of a disk: where it works, what it reads at a path, and whether a text can be
written to a file or to the stream for output. A refusal has the number and the words that systems
of the POSIX family give it. A file that refuses a text after it has been opened keeps the bytes
that it has taken until then, and so does the stream.

A `FileTree` is a disk in memory. Every step of a path has to start in a directory, so `..` after
a name that is missing leads nowhere.
-/

namespace HostDecl

structure DiskFault where
  number : Nat
  reason : String
  deriving DecidableEq, Repr

namespace DiskFault

def missing : DiskFault := ⟨2, "No such file or directory"⟩

def badDescriptor : DiskFault := ⟨9, "Bad file descriptor"⟩

def denied : DiskFault := ⟨13, "Permission denied"⟩

def notDirectory : DiskFault := ⟨20, "Not a directory"⟩

def isDirectory : DiskFault := ⟨21, "Is a directory"⟩

def noSpace : DiskFault := ⟨28, "No space left on device"⟩

def brokenPipe : DiskFault := ⟨32, "Broken pipe"⟩

def nameTooLong : DiskFault := ⟨36, "File name too long"⟩

def linkLoop : DiskFault := ⟨40, "Too many levels of symbolic links"⟩

def known : List DiskFault :=
  [missing, badDescriptor, denied, notDirectory, isDirectory, noSpace, brokenPipe, nameTooLong,
    linkLoop]

/-- The faults by which a path is said to lead to nothing. -/
def absences : List DiskFault :=
  [missing, notDirectory, badDescriptor, linkLoop]

/-- The path at which there is this fault leads to nothing. The number alone decides. -/
def isAbsence (f : DiskFault) : Bool :=
  absences.any fun absence => absence.number = f.number

/-- The fault as it is told, about a path if it is known which one. -/
def text (f : DiskFault) (path : Option String) : String :=
  "[Errno " ++ toString f.number ++ "] " ++ f.reason ++
    match path with
    | none => ""
    | some path => ": " ++ quoted path

end DiskFault

/-! ## Outputs -/

/-- Where a text is written to. -/
inductive Outlet where
  /-- The stream for output. -/
  | stream
  | file (path : Path)
  deriving DecidableEq, Repr

/-- An outlet that a text can be written to. -/
def Outlet.isPossible : Outlet → Bool
  | stream => true
  | file path => path.isPossible

/-- What keeps an outlet from taking a text. -/
structure OutletFault where
  fault : DiskFault
  /-- How many bytes have been taken by then. A file that cannot be opened takes none, and stays as
  it was; one that has been opened is emptied first. -/
  taken : Option Nat := none
  deriving DecidableEq, Repr

/-- The fault as it is told. A path is only known where a file cannot be opened. -/
def OutletFault.text (r : OutletFault) (outlet : Outlet) : String :=
  match r.taken, outlet with
  | none, .file path => r.fault.text (some path.text)
  | _, _ => r.fault.text none

/-- A text that has been cut off: where it went, and the bytes that went there. -/
structure Torn where
  outlet : Outlet
  bytes : List UInt8
  deriving DecidableEq, Repr

/-- What a refused text leaves behind. -/
def OutletFault.torn (r : OutletFault) (outlet : Outlet) (text : String) : Option Torn :=
  r.taken.map fun count => { outlet, bytes := text.toUTF8.data.toList.take count }

/-- What is left of a text is its beginning. -/
theorem OutletFault.prefix_of_torn {r : OutletFault} {outlet : Outlet} {text : String} {torn : Torn}
    (h : r.torn outlet text = some torn) :
    torn.outlet = outlet ∧ torn.bytes <+: text.toUTF8.data.toList := by
  obtain ⟨count, -, rfl⟩ := Option.map_eq_some_iff.mp h
  exact ⟨rfl, List.take_prefix _ _⟩

/-! ## Disks -/

structure Disk where
  /-- The working directory, unless it is not there any more. -/
  directory : Except DiskFault Path
  read : Path → Except DiskFault ByteArray
  /-- What keeps a file, or the stream for output, from being written. -/
  refusal : Outlet → Option OutletFault

/-- There is something at a path, even if it cannot be read. -/
def Disk.has (disk : Disk) (path : Path) : Bool :=
  match disk.read path with
  | .ok _ => true
  | .error fault => !fault.isAbsence

/-! ## Disks in memory -/

inductive FileNode where
  | directory
  | file (content : ByteArray)

/-- Files are compared by their bytes. -/
instance : DecidableEq FileNode
  | .directory, .directory => isTrue rfl
  | .directory, .file _ => isFalse nofun
  | .file _, .directory => isFalse nofun
  | .file a, .file b =>
    match ByteArray.decEq a b with
    | isTrue h => isTrue (congrArg _ h)
    | isFalse h => isFalse fun heq => h (FileNode.file.inj heq)

/-- Files and directories by the names on the way from the root, and the working directory. -/
structure FileTree where
  nodes : List (List String × FileNode) := []
  directory : List String := []
  deriving DecidableEq

namespace FileTree

/-- What is at a place. There is always a root. -/
def node? (t : FileTree) (place : List String) : Option FileNode :=
  if place = [] then some .directory else t.nodes.lookup place

/-- The longest name and the longest path that a system takes, in bytes. -/
def nameLimit : Nat := 255

def pathLimit : Nat := 4095

/-- The place that is reached from a place by a step, which has to start in a directory. -/
def step (t : FileTree) (place : List String) (name : String) :
    Except DiskFault (List String) :=
  match t.node? place with
  | none => .error .missing
  | some (.file _) => .error .notDirectory
  | some .directory =>
    if name = ".." then .ok place.dropLast
    else if nameLimit < name.utf8ByteSize then .error .nameTooLong
    else .ok (place ++ [name])

/-- The place that a path leads to. -/
def find (t : FileTree) (p : Path) : Except DiskFault (List String) :=
  if pathLimit < p.text.utf8ByteSize then .error .nameTooLong
  else p.names.foldlM t.step (if p.root = .relative then t.directory else [])

def read (t : FileTree) (p : Path) : Except DiskFault ByteArray := do
  match t.node? (← t.find p) with
  | none => throw .missing
  | some .directory => throw .isDirectory
  | some (.file content) => pure content

/-- What keeps a file from being written: the way there, or a directory in its place. -/
def refusal (t : FileTree) (p : Path) : Option DiskFault :=
  match t.find p with
  | .error fault => some fault
  | .ok place => if t.node? place = some .directory then some .isDirectory else none

/-- The tree with something at a place, instead of what was there. -/
def put (t : FileTree) (place : List String) (node : FileNode) : FileTree :=
  { t with nodes := (place, node) :: t.nodes.filter (·.1 ≠ place) }

/-- The tree with a file that holds a text, if it may be written. -/
def write (t : FileTree) (p : Path) (text : String) : FileTree :=
  match t.find p with
  | .error _ => t
  | .ok place => t.put place (.file text.toUTF8)

/-- The tree with directories at all places on the way from one place along names. -/
def makeDirectories (t : FileTree) (place : List String) : List String → FileTree
  | [] => t
  | name :: names => (t.put (place ++ [name]) .directory).makeDirectories (place ++ [name]) names

/-- The tree with something below the working directory, and with the directories on the way. -/
def add (t : FileTree) (p : Path) (node : FileNode) : FileTree :=
  (t.makeDirectories t.directory p.names.dropLast).put (t.directory ++ p.names) node

/-- The files below the working directory that another tree does not have like that. -/
def newSince (t before : FileTree) : List (List String × ByteArray) :=
  t.nodes.filterMap fun (place, node) =>
    match node with
    | .directory => none
    | .file content =>
      if t.directory.isPrefixOf place && before.nodes.lookup place != some node then
        some (place.drop t.directory.length, content)
      else none

/-- The tree as a disk with a stream that takes everything. The working directory is shown as
another path. -/
def disk (t : FileTree) (shown : Path) : Disk where
  directory := if t.node? t.directory = some .directory then .ok shown else .error .missing
  read := t.read
  refusal
    | .stream => none
    | .file path => (t.refusal path).map fun fault => { fault }

end FileTree

end HostDecl
