import HostDecl.Generate
import HostDecl.Proofs.Backend.Uniform
import HostDecl.Proofs.Layout.Marks
import HostDecl.Proofs.Session.Cache

/-!
# Layouts that are kept do not show

What has been found is kept, in a calculator for one interface and in a session from one interface
to the next. `kept_layouts_invisible` says that nobody can tell: each question is answered as by a
calculator that has not been asked anything, after any other questions and any other requests, and
no declaration stays marked between two questions.
-/

namespace HostDecl

/-- The events of a new session of a host that forgets its calculator before each request. -/
def Host.historyAfresh (host : Host) (config : Config) (requests : List Request) : List Event :=
  match host with
  | .rust => (Rust.backend config).historyAfresh (Rust.backend config).newSession requests
  | .c => (C.backend config).historyAfresh (C.backend config).newSession requests
  | .llvm => (Llvm.backend config).historyAfresh (Llvm.backend config).newSession requests

section

variable {V S : Type} (b : Backend V S)

theorem Backend.sameButSizing_newSession :
    b.newSession.SameButSizing b.abi b.newSession where
  page := rfl
  defined := rfl
  reporter := rfl
  reported := rfl
  own := rfl
  trusted := nofun
  trusted' := nofun

/-- The last question of a history is answered as by a calculator that has not been asked
anything. -/
theorem Backend.history_ask (hb : b.Uniform) (requests : List Request) (i : Interface)
    (query : Sizing.Query) :
    (b.history b.newSession (requests ++ [.ask i query])).getLast?.map Event.outcome =
      some ((Sizing.fresh i b.abi query).map Answer.layout) := by
  rw [getLast?_history, outcome_ask (trusted_after hb b.sameButSizing_newSession requests)]

end

/-- No answer of a calculator and nothing in a session depends on the layouts that are kept, and a
calculator that marks what it is inside of has no mark left after a question. -/
theorem kept_layouts_invisible :
    (∀ i abi queries, Sizing.answers { interface := i, abi } queries =
        queries.map (Sizing.fresh i abi)) ∧
    (∀ (i : Interface) abi queries,
        (i.visits abi {} queries).1 = queries.map (Sizing.fresh i abi) ∧
        (i.visits abi {} queries).2.pending = []) ∧
    ∀ (host : Host) config requests,
      host.history config requests = host.historyAfresh config requests ∧
      ∀ i query, (host.history config (requests ++ [.ask i query])).getLast?.map Event.outcome =
        some ((Sizing.fresh i (host.abi config) query).map Answer.layout) := by
  have hanswers (i : Interface) (abi : Abi) (queries : List Sizing.Query) :
      Sizing.answers { interface := i, abi } queries = queries.map (Sizing.fresh i abi) :=
    (Sizing.Serves.new i abi).answers_eq queries
  refine ⟨hanswers, fun i abi queries => ?_, fun host config requests => ?_⟩
  · have hvisits := Interface.visits_eq { interface := i, abi } queries
    rwa [hanswers] at hvisits
  · cases host with
    | rust =>
        have hb := Rust.uniform config
        exact ⟨Backend.history_eq_afresh hb (Rust.backend config).sameButSizing_newSession requests,
          (Rust.backend config).history_ask hb requests⟩
    | c =>
        have hb := C.uniform config
        exact ⟨Backend.history_eq_afresh hb (C.backend config).sameButSizing_newSession requests,
          (C.backend config).history_ask hb requests⟩
    | llvm =>
        have hb := Llvm.uniform config
        exact ⟨Backend.history_eq_afresh hb (Llvm.backend config).sameButSizing_newSession requests,
          (Llvm.backend config).history_ask hb requests⟩

end HostDecl
