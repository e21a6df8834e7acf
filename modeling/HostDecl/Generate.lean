import HostDecl.Backend.C
import HostDecl.Backend.Llvm
import HostDecl.Backend.Rust
import HostDecl.Session.History

/-!
# Generation

The text of an interface for the host with a given name. Nothing but the fault and the
diagnostics come out of a run that fails.
-/

namespace HostDecl

namespace Host

/-- The host with that name; the fault lists all names there are. -/
def find (name : String) : Except Fault Host :=
  match ofName? name with
  | some host => .ok host
  | none => .error (.unknownBackend name (all.map Host.name))

/-- The text of an interface for a host. -/
def generate (host : Host) (config : Config) (i : Interface) (skipUnsupported : Bool)
    (reporter : Reporter) : Except Fault String × Reporter :=
  match host with
  | .rust => (Rust.backend config).generate i skipUnsupported reporter
  | .c => (C.backend config).generate i skipUnsupported reporter
  | .llvm => (Llvm.backend config).generate i skipUnsupported reporter

/-- The events of a new session of a host. -/
def history (host : Host) (config : Config) (requests : List Request) : List Event :=
  match host with
  | .rust => (Rust.backend config).history (Rust.backend config).newSession requests
  | .c => (C.backend config).history (C.backend config).newSession requests
  | .llvm => (Llvm.backend config).history (Llvm.backend config).newSession requests

end Host

/-- The text of an interface for the host with a name. -/
def generate (i : Interface) (backend : String) (config : Config) (skipUnsupported : Bool)
    (reporter : Reporter) : Except Fault String × Reporter :=
  match Host.find backend with
  | .error fault => (.error fault, reporter)
  | .ok host => host.generate config i skipUnsupported reporter

end HostDecl
