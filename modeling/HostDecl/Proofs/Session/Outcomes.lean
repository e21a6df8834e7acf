import HostDecl.Proofs.Session.Steps

/-!
# What comes of the steps of a session

`Steps` says when a step of a session succeeds. Here is what comes of each step, whether it succeeds
or not, as an equation: the answer or the fault, and the session that is left.
-/

namespace HostDecl

variable {V S : Type}

namespace Session

/-- The session after looking at a reference for widening. -/
def noted (s : Session V S) (table : AtomTable) (type : TypeRef) (location : Location) :
    Session V S :=
  match type with
  | .atom a =>
    if table.widens a && !s.reported.contains a then
      { s with
        reported := a :: s.reported
        reporter := s.reporter.warn (.widened a (table.token a) table.host) location }
    else s
  | _ => s

/-- The session that keeps a calculator. -/
def keep (s : Session V S) (sizing : Sizing) : Session V S :=
  { s with sizing := some sizing }

end Session

open Emission

variable (s : Session V S)

theorem outcome_line (text : String) (depth : Nat) :
    outcome (line text depth) s = (.ok (), s.print [{ text, depth }]) := rfl

theorem outcome_define (valueText : V → String) (d : Decl) (value : V) :
    outcome (define valueText d value) s = match s.defined.get? d.id with
      | none => (.ok (), s.register (s.defined.extend d.id value d.name))
      | some existing => (.error (.alreadyDefined d.name d.id (valueText existing)), s) := by
  rw [define, outcome_bind, outcome_get]
  dsimp only
  unfold Registry.define
  cases s.defined.get? d.id with
  | none => rfl
  | some existing => rfl

theorem outcome_resolve (atomType : Atom → V) (i : Interface) (type : TypeRef) :
    outcome (resolve atomType i type) s = match s.defined.resolve atomType type with
      | .ok value => (.ok value, s)
      | .error (.undefined id) => (.error (.notEmitted (some (i.nameOf id)) id), s)
      | .error .notReference => (.error .notReference, s) := by
  rw [resolve, outcome_bind, outcome_get]
  dsimp only
  rcases s.defined.resolve atomType type with (id | _) | value <;> rfl

theorem outcome_askSizing (abi : Abi) (i : Interface)
    (query : Sizing → Except Fault Layout × Sizing) :
    outcome (askSizing abi i query : Emission V S Layout) s =
      ((query (sizingOf abi i s)).1, s.keep (query (sizingOf abi i s)).2) := by
  rw [askSizing, outcome_bind, outcome_get]
  dsimp only
  rcases query (sizingOf abi i s) with ⟨fault | layout, z⟩ <;> rfl

theorem outcome_warn (w : Warning) (location : Location) :
    outcome (warn w location) s =
      (.ok (), { s with reporter := s.reporter.warn w location }) := rfl

theorem outcome_checkWidening (table : AtomTable) (type : TypeRef) (location : Location) :
    outcome (checkWidening table type location) s = (.ok (), s.noted table type location) := by
  cases type with
  | atom a =>
      rw [checkWidening, outcome_bind, outcome_get]
      simp only [Session.noted]
      split <;> rfl
  | decl id => rfl
  | foreign text => rfl

theorem Backend.generate_eq (b : Backend V S) (i : Interface) (skipUnsupported : Bool)
    (reporter : Reporter) : b.generate i skipUnsupported reporter =
      match outcome (b.run i skipUnsupported) (b.newSession reporter) with
      | (.ok _, t) => (.ok t.page.text, t.reporter)
      | (.error fault, t) => (.error fault, t.reporter) := rfl

/-- A text and its diagnostics are those of a run that succeeds. -/
theorem Backend.generate_eq_iff {b : Backend V S} {i : Interface} {skipUnsupported : Bool}
    {reporter reporter' : Reporter} {text : String} :
    b.generate i skipUnsupported reporter = (.ok text, reporter') ↔
      ∃ t, Yields (b.run i skipUnsupported) (b.newSession reporter) () t ∧
        t.page.text = text ∧ t.reporter = reporter' := by
  rw [b.generate_eq]
  unfold Yields
  rcases outcome (b.run i skipUnsupported) (b.newSession reporter) with ⟨fault | u, s⟩
  · simp
  · simp

end HostDecl
