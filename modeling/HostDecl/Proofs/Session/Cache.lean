import HostDecl.Proofs.Layout.Cache
import HostDecl.Proofs.Session.Coupling

/-!
# The calculator of a session does not show

A session keeps the calculator of the interface that it worked on last. Two sessions that differ in
nothing else go on in the same way (`inStep_perform`), so a history is the same if the calculator is
thrown away before each request (`Backend.history_eq_afresh`). A question about a layout is answered
as by a calculator of its interface that has not been asked anything, whichever interfaces came
before (`Backend.outcome_ask`).
-/

namespace HostDecl

variable {V S : Type}

/-- The session without a calculator. -/
def Session.forget (s : Session V S) : Session V S :=
  { s with sizing := none }

/-- The events of a sequence of requests to a session that forgets its calculator before each. -/
def Backend.historyAfresh (b : Backend V S) (s : Session V S) : List Request → List Event
  | [] => []
  | request :: requests =>
    let (outcome, next) := b.step s.forget request
    { outcome
      written := String.ofList (next.page.text.toList.drop s.page.text.length)
      defined := next.defined.idents
      raised := next.reporter.items.drop s.reporter.items.length }
      :: b.historyAfresh next requests

/-- The request for a layout. -/
def Request.ask (i : Interface) : Sizing.Query → Request
  | .decl id => .layout i id
  | .ref type => .layoutOfRef i type

/-- Two sessions that differ at most in what their calculators have found. -/
structure Session.SameButSizing (abi : Abi) (s s' : Session V S) : Prop where
  page : s'.page = s.page
  defined : s'.defined = s.defined
  reporter : s'.reporter = s.reporter
  reported : s'.reported = s.reported
  own : s'.own = s.own
  trusted : ∀ i, s.Trusted abi i
  trusted' : ∀ i, s'.Trusted abi i

namespace Session.SameButSizing

variable {abi : Abi} {s s' : Session V S}

theorem forget (h : SameButSizing abi s s') : SameButSizing abi s s'.forget :=
  { h with trusted' := nofun }

theorem print (h : SameButSizing abi s s') (lines : List Line) :
    SameButSizing abi (s.print lines) (s'.print lines) :=
  { h with page := congrArg (Page.print · lines) h.page }

theorem rest (h : SameButSizing abi s s') : SameButSizing abi s.rest s'.rest :=
  { h with page := congrArg (Page.endBlock · {}) h.page }

theorem noted (h : SameButSizing abi s s') (table : AtomTable) (type : TypeRef)
    (location : Location) :
    SameButSizing abi (s.noted table type location) (s'.noted table type location) := by
  have hnoted := noted_rename (fun x => x) h h.reported (fun _ warning location => { h with
    reported := rfl
    reporter := congrArg (Reporter.warn · warning location) h.reporter }) table type location
  rwa [TypeRef.rename_id] at hnoted

theorem keep (h : SameButSizing abi s s') {i : Interface} {z z' : Sizing} (hz : z.Serves i abi)
    (hz' : z'.Serves i abi) : SameButSizing abi (s.keep z) (s'.keep z') := by
  have htrusted (t : Session V S) {y : Sizing} (hy : y.Serves i abi) (j : Interface) :
      (t.keep y).Trusted abi j := by
    intro x hx _
    obtain rfl := Option.some.inj hx
    exact ⟨hy.abi, hy.sound⟩
  exact { h with trusted := htrusted s hz, trusted' := htrusted s' hz' }

end Session.SameButSizing

theorem Session.Trusted.serves {abi : Abi} {i : Interface} {s : Session V S}
    (h : s.Trusted abi i) : (Emission.sizingOf abi i s).Serves i abi :=
  have ⟨hi, habi, hsound⟩ := h.sizingOf
  ⟨hi, habi, hsound⟩

section

variable (b : Backend V S) (i : Interface)

/-- A question is answered alike whatever the calculators of the sessions have found. -/
theorem inStep_ask (query : Sizing.Query) :
    InStep (Session.SameButSizing (V := V) (S := S) b.abi) Eq (fun l l' => l' = l)
      (Emission.askSizing b.abi i fun z => z.ask query)
      (Emission.askSizing b.abi i fun z => z.ask query) :=
  .askSizing fun _ _ hs => ((hs.trusted i).serves.matched_ask (hs.trusted' i).serves query).weaken
    fun _ _ hz => hs.keep hz.1 hz.2

theorem inStep_line_sizing (text : String) (depth : Nat) :
    InStep (Session.SameButSizing (V := V) (S := S) b.abi) Eq (fun _ _ => True)
      (Emission.line text depth) (Emission.line text depth) := by
  intro s s' hs
  rw [outcome_line, outcome_line]
  exact .ok trivial (hs.print _)

theorem inStep_emitHeader_sizing (d : Decl) :
    InStep (Session.SameButSizing b.abi) Eq (fun _ _ => True)
      (b.emitHeader i d) (b.emitHeader i d) :=
  .bind (R := fun _ _ => True) (fun _ _ hs => .ok trivial hs.rest)
    fun _ _ _ => inStep_line_sizing b _ 0

theorem inStep_define_sizing (d : Decl) (value : V) :
    InStep (Session.SameButSizing (S := S) b.abi) Eq (fun _ _ => True)
      (Emission.define b.valueText d value) (Emission.define b.valueText d value) := by
  intro s s' hs
  rw [outcome_define, outcome_define, hs.defined]
  cases s.defined.get? d.id with
  | none => exact .ok trivial { hs with defined := rfl }
  | some existing => exact .error rfl hs

theorem inStep_resolve_sizing (type : TypeRef) :
    InStep (Session.SameButSizing (S := S) b.abi) Eq (fun value value' => value' = value ∧ True)
      (Emission.resolve b.atomType i type) (Emission.resolve b.atomType i type) := by
  intro s s' hs
  rw [outcome_resolve, outcome_resolve, hs.defined]
  rcases s.defined.resolve b.atomType type with (id | _) | value
  · exact .error rfl hs
  · exact .error rfl hs
  · exact .ok ⟨rfl, trivial⟩ hs

/-- The steps of every backend are in step whatever the calculators have found. -/
theorem coupling_sizing :
    Coupling b (fun x => x) i (Session.SameButSizing b.abi) Eq (fun _ => True) (fun _ => True) where
  fault f := rfl
  line := inStep_line_sizing b
  endBlock s s' hs := .ok trivial hs.rest
  header d _ _ := by
    rw [Interface.rename_id, Decl.rename_id]
    exact inStep_emitHeader_sizing b i d
  define d value _ := by
    rw [Decl.rename_id]
    exact inStep_define_sizing b d value
  resolve type := by
    rw [Interface.rename_id, TypeRef.rename_id]
    exact inStep_resolve_sizing b i type
  layoutOf id := by
    rw [Interface.rename_id]
    exact inStep_ask b i (.decl id)
  checkWidening type location s s' hs := by
    rw [TypeRef.rename_id, outcome_checkWidening, outcome_checkWidening]
    exact .ok trivial (hs.noted ..)
  warn w location s s' hs := by
    rw [outcome_warn, outcome_warn]
    exact .ok trivial { hs with reporter := congrArg (Reporter.warn · w location) hs.reporter }
  own s s' hs := hs.own
  hold s s' own hs := { hs with own := rfl }

end

/-- Requests are answered alike whatever the calculators have found. -/
theorem inStep_perform {b : Backend V S} (hb : b.Uniform) (request : Request) :
    InStep (Session.SameButSizing b.abi) Eq (fun answer answer' => answer' = answer)
      (b.perform request) (b.perform request) :=
  inStep_perform_of (coupling_sizing b) hb (fun i type => inStep_ask b i (.ref type))
    (fun _ _ hs => hs.defined) fun _ _ => trivial

/-! ## Histories -/

namespace Backend

variable {b : Backend V S}

/-- Throwing the calculator away before each request does not show. -/
theorem history_eq_afresh (hb : b.Uniform) {s s' : Session V S}
    (h : s.SameButSizing b.abi s') (requests : List Request) :
    b.history s requests = b.historyAfresh s' requests := by
  induction requests generalizing s s' with
  | nil => rfl
  | cons request requests ih =>
      have hstep : Matched _ _ _ (b.step s request) (b.step s'.forget request) :=
        inStep_perform hb request s s'.forget h.forget
      rw [history, historyAfresh, h.page, h.reporter]
      generalize b.step s request = p, b.step s'.forget request = p' at hstep
      cases hstep with
      | ok ha hs =>
          subst ha
          dsimp only
          rw [hs.page, hs.defined, hs.reporter, ih hs]
      | error hf hs =>
          subst hf
          dsimp only
          rw [hs.page, hs.defined, hs.reporter, ih hs]

theorem perform_ask (i : Interface) (query : Sizing.Query) :
    b.perform (.ask i query) = (do
      let layout ← Emission.askSizing b.abi i fun z => z.ask query
      pure (.layout layout)) := by
  cases query <;> rfl

/-- A question is answered as by a calculator that has not been asked anything. -/
theorem outcome_ask {s : Session V S} (h : ∀ i, s.Trusted b.abi i) (i : Interface)
    (query : Sizing.Query) :
    (b.step s (.ask i query)).1 = (Sizing.fresh i b.abi query).map Answer.layout := by
  have hask := (h i).serves.matched_ask (.new i b.abi) query
  show (outcome (b.perform (.ask i query)) s).1 = _
  rw [perform_ask, outcome_bind, outcome_askSizing, Sizing.fresh]
  generalize (Emission.sizingOf b.abi i s).ask query = p,
    Sizing.ask { interface := i, abi := b.abi } query = p' at hask
  cases hask with
  | ok hl _ =>
      subst hl
      rfl
  | error hf _ =>
      subst hf
      rfl

/-- Whatever the requests, the calculator of the session is right after them. -/
theorem trusted_after (hb : b.Uniform) {s : Session V S} (h : s.SameButSizing b.abi s)
    (requests : List Request) : ∀ i, (b.after s requests).Trusted b.abi i := by
  induction requests generalizing s with
  | nil => exact h.trusted
  | cons request requests ih =>
      have hstep : Matched _ _ _ (b.step s request) (b.step s request) :=
        inStep_perform hb request s s h
      rw [after, List.foldl_cons]
      refine ih ?_
      rcases hs : b.step s request with ⟨answer, next⟩
      rw [hs] at hstep
      cases hstep with
      | ok _ hs => exact hs
      | error _ hs => exact hs

theorem getLast?_history (s : Session V S) (requests : List Request) (request : Request) :
    (b.history s (requests ++ [request])).getLast?.map Event.outcome =
      some (b.step (b.after s requests) request).1 := by
  induction requests generalizing s with
  | nil => rfl
  | cons first requests ih =>
      rw [List.cons_append, history, List.getLast?_cons]
      have hlast := ih (b.step s first).2
      cases h : (b.history (b.step s first).2 (requests ++ [request])).getLast? with
      | none =>
          rw [h] at hlast
          cases hlast
      | some event =>
          rw [h] at hlast
          exact hlast

end Backend

end HostDecl
