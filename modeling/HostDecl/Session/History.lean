import HostDecl.Session.Backend

/-!
# Histories of a session

A session can be asked for any single operation, in any order and for any interface. A request
either has an answer or fails; both leave a session behind, and the next request works on it. A
history records, for each request, what came of it and what it changed.
-/

namespace HostDecl

/-- An operation on a session. -/
inductive Request where
  | preamble (i : Interface)
  | closing (i : Interface)
  | header (i : Interface) (d : Decl)
  | aliasOf (i : Interface) (d : Decl)
  | struct (i : Interface) (d : Decl)
  | enum (i : Interface) (d : Decl)
  | function (i : Interface) (d : Decl)
  | decl (i : Interface) (d : Decl)
  | run (i : Interface) (skipUnsupported : Bool)
  | resolve (i : Interface) (type : TypeRef)
  | layout (i : Interface) (id : Ident)
  | layoutOfRef (i : Interface) (type : TypeRef)
  | checkWidening (type : TypeRef) (location : Location)
  | get (id : Ident)
  | declaredName (id : Ident)
  | finish

/-- What an operation answers. -/
inductive Answer where
  | done
  | text (content : Option String)
  | layout (value : Layout)
  deriving DecidableEq, Repr

namespace Backend

variable {V S : Type}

/-- The emission of one request. -/
def perform (b : Backend V S) : Request → Emission V S Answer
  | .preamble i => do b.preamble i; pure .done
  | .closing i => do b.closing i; pure .done
  | .header i d => do b.emitHeader i d; pure .done
  | .aliasOf i d => do b.emitAlias i d; pure .done
  | .struct i d => do b.emitStruct i d; pure .done
  | .enum i d => do b.emitEnum i d; pure .done
  | .function i d => do b.emitFunction i d; pure .done
  | .decl i d => do b.emitDecl i d; pure .done
  | .run i skipUnsupported => do b.run i skipUnsupported; pure .done
  | .resolve i type => do
    let value ← Emission.resolve b.atomType i type
    pure (.text (b.valueText value))
  | .layout i id => do
    let layout ← Emission.layoutOf b.abi i id
    pure (.layout layout)
  | .layoutOfRef i type => do
    let layout ← Emission.askSizing b.abi i fun sizing => sizing.layoutOfRef type
    pure (.layout layout)
  | .checkWidening type location => do
    Emission.checkWidening b.host.atoms type location
    pure .done
  | .get id => do
    let s ← get
    pure (.text ((s.defined.get? id).map b.valueText))
  | .declaredName id => do
    let s ← get
    pure (.text (s.defined.declaredName? id))
  | .finish => pure .done

/-- The outcome of a request and the session after it. -/
def step (b : Backend V S) (s : Session V S) (request : Request) :
    Except Fault Answer × Session V S :=
  (b.perform request).run.run s

/-- The session after a sequence of requests. -/
def after (b : Backend V S) (s : Session V S) (requests : List Request) : Session V S :=
  requests.foldl (fun s request => (b.step s request).2) s

end Backend

/-- What one request of a history came to. -/
structure Event where
  outcome : Except Fault Answer
  /-- The text that it wrote. -/
  written : String
  /-- All defined idents after it. -/
  defined : List Ident
  /-- The diagnostics that it raised. -/
  raised : List Diagnostic

/-- The events of a sequence of requests. -/
def Backend.history {V S : Type} (b : Backend V S) (s : Session V S) :
    List Request → List Event
  | [] => []
  | request :: requests =>
    let (outcome, next) := b.step s request
    { outcome
      written := String.ofList (next.page.text.toList.drop s.page.text.length)
      defined := next.defined.idents
      raised := next.reporter.items.drop s.reporter.items.length }
      :: b.history next requests

end HostDecl
