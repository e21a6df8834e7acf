import HostDecl.Interface.Builder
import HostDecl.Proofs.Interface.Order
import Mathlib.Data.List.Pairwise

/-!
# Idents of a builder

The next number of a builder lies above every ident that it has handed out or been given, and it
never goes down: a reservation counts on by one, and an added declaration moves it past its ident.
So whatever is reserved later is a number that nothing has had before (`next_le_id`,
`id_lt_next_step`), in any order of requests and with idents of any index.

If only reserved idents are given, each to one declaration, no two declarations of the interface
share an ident (`OwnReserved.pairwise`), and an ident stands for what was declared under it
(`builder_idents_fresh`).
-/

namespace HostDecl

namespace Builder

/-! ## Calls -/

/-- The ident that a request brings with it. -/
def Step.own? : Step → Option Ident
  | .reserve => none
  | .declare _ _ id => id

/-- A request to a builder, and the ident that it came back with. -/
structure Call where
  step : Step
  id : Ident
  deriving DecidableEq, Repr

/-- The builder had to reserve an ident, for the caller or for a declaration without one. -/
def Call.Reserves (call : Call) : Prop :=
  call.step.own? = none

/-- The declaration that the call has added. -/
def Call.decl? (call : Call) : Option Decl :=
  match call.step with
  | .reserve => none
  | .declare name entity _ => some { id := call.id, name, entity }

/-- What came of a sequence of requests, one call after the other. -/
def calls (b : Builder) : List Step → List Call
  | [] => []
  | step :: steps => { step, id := (b.step step).1 } :: (b.step step).2.calls steps

/-- Idents that come with a declaration were reserved before, and each comes with one declaration
only. What the builder reserves for a declaration without ident is that declaration's. -/
structure OwnReserved (calls : List Call) : Prop where
  reserved : ∀ call ∈ calls, ∀ id ∈ call.step.own?, { step := .reserve, id } ∈ calls
  once : (calls.filterMap fun call => call.step.own?).Nodup

theorem Call.id_of_decl? {call : Call} {d : Decl} (h : call.decl? = some d) : d.id = call.id := by
  unfold decl? at h
  split at h
  · cases h
  · obtain rfl := Option.some.inj h
    rfl

/-! ## One request -/

section

variable {step : Step} {id : Ident}

/-- A reserved ident is the next number. -/
theorem id_of_own?_eq_none (b : Builder) (h : step.own? = none) : (b.step step).1 = ⟨b.next⟩ := by
  cases step with
  | reserve => rfl
  | declare name entity own =>
      obtain rfl : own = none := h
      rfl

theorem id_of_own? (b : Builder) (h : step.own? = some id) : (b.step step).1 = id := by
  cases step with
  | reserve => cases h
  | declare name entity own =>
      obtain rfl : own = some id := h
      rfl

theorem next_le_next_step (b : Builder) (step : Step) : b.next ≤ (b.step step).2.next := by
  cases step with
  | reserve => exact Int.le_of_lt (Int.lt_succ b.next)
  | declare name entity own =>
      cases own with
      | none => exact Int.le_trans (Int.le_of_lt (Int.lt_succ b.next)) (Int.le_max_left _ _)
      | some id => exact Int.le_max_left _ _

/-- After a request, the next number lies above the ident that came back. -/
theorem id_lt_next_step (b : Builder) (step : Step) :
    (b.step step).1.index < (b.step step).2.next := by
  cases step with
  | reserve => exact Int.lt_succ b.next
  | declare name entity own =>
      cases own with
      | none => exact Int.lt_of_lt_of_le (Int.lt_succ b.next) (Int.le_max_right _ _)
      | some id => exact Int.lt_of_lt_of_le (Int.lt_succ id.index) (Int.le_max_right _ _)

theorem decls_step (b : Builder) (step : Step) :
    (b.step step).2.decls =
      b.decls ++ (Call.decl? { step, id := (b.step step).1 }).toList := by
  cases step with
  | reserve => exact (List.append_nil _).symm
  | declare name entity own => cases own <;> rfl

end

/-! ## All requests -/

section

variable {b : Builder} {steps : List Step}

/-- What is reserved from now on starts at the next number. -/
theorem next_le_id : ∀ call ∈ b.calls steps, call.Reserves → b.next ≤ call.id.index := by
  induction steps generalizing b with
  | nil => exact nofun
  | cons step steps ih =>
      refine List.forall_mem_cons.mpr ⟨fun h => ?_, fun call hcall h => ?_⟩
      · exact Int.le_of_eq (congrArg Ident.index (b.id_of_own?_eq_none h)).symm
      · exact Int.le_trans (b.next_le_next_step step) (ih call hcall h)

/-- A reserved ident differs from all idents before it. -/
theorem pairwise_calls : (b.calls steps).Pairwise fun earlier later =>
    later.Reserves → later.id ≠ earlier.id := by
  induction steps generalizing b with
  | nil => exact .nil
  | cons step steps ih =>
      refine .cons (fun later hlater h heq => ?_) ih
      have habove := next_le_id later hlater h
      rw [heq] at habove
      exact absurd (b.id_lt_next_step step) (Int.not_lt.mpr habove)

theorem decls_run (b : Builder) (steps : List Step) :
    (b.run steps).decls = b.decls ++ (b.calls steps).filterMap Call.decl? := by
  induction steps generalizing b with
  | nil => exact (List.append_nil _).symm
  | cons step steps ih =>
      have hrun : b.run (step :: steps) = (b.step step).2.run steps := rfl
      rw [hrun, ih, decls_step, calls, List.append_assoc]
      cases hdecl : Call.decl? { step, id := (b.step step).1 } <;> simp [hdecl]

/-- An ident that comes with a request is the one that comes back. -/
theorem id_eq_of_own? : ∀ call ∈ b.calls steps, ∀ id ∈ call.step.own?, call.id = id := by
  induction steps generalizing b with
  | nil => exact nofun
  | cons step steps ih =>
      exact List.forall_mem_cons.mpr ⟨fun id h => b.id_of_own? h, fun call hcall => ih call hcall⟩

/-- Of two calls that reserve, each has an ident of its own. -/
theorem eq_of_reserves {call call' : Call} (hcall : call ∈ b.calls steps)
    (hcall' : call' ∈ b.calls steps) (h : call.Reserves) (h' : call'.Reserves)
    (heq : call.id = call'.id) : call = call' := by
  have hapart : (b.calls steps).Pairwise fun x y =>
      x.Reserves → y.Reserves → x.id = y.id → x = y :=
    pairwise_calls.imp fun hxy _ hy hid => (hxy hy hid.symm).elim
  have : Std.Symm fun x y : Call => x.Reserves → y.Reserves → x.id = y.id → x = y :=
    ⟨fun _ _ hxy hy hx hid => (hxy hx hy hid.symm).symm⟩
  exact hapart.forall_of_forall (fun _ _ _ _ _ => rfl) hcall hcall' h h' heq

/-- If the idents that come with declarations are reserved ones, each coming once, no two
declarations have the same. -/
theorem OwnReserved.pairwise (h : OwnReserved (b.calls steps)) :
    (b.calls steps).Pairwise fun earlier later =>
      ∀ d ∈ earlier.decl?, ∀ d' ∈ later.decl?, d.id ≠ d'.id := by
  have honce := List.pairwise_filterMap.mp h.once
  refine (pairwise_calls.and honce).imp_of_mem ?_
  rintro earlier later hearlier hlater ⟨hfresh, honce⟩ d hd d' hd' heq
  rw [Call.id_of_decl? hd, Call.id_of_decl? hd'] at heq
  cases hown' : later.step.own? with
  | none => exact hfresh hown' heq.symm
  | some id =>
      have hid : earlier.id = id := heq.trans (id_eq_of_own? later hlater id hown')
      cases hown : earlier.step.own? with
      | some id' =>
          have hid' := id_eq_of_own? earlier hearlier id' hown
          exact honce id' hown id hown' (hid'.symm.trans hid)
      | none =>
          -- the ident was reserved twice: by itself, and for the earlier declaration
          have hreserve := h.reserved later hlater id hown'
          obtain rfl := eq_of_reserves hearlier hreserve hown rfl hid
          cases hd

end

end Builder

/-- An ident that a builder reserves, asked to or for a declaration without one, is none that it
has handed out or been given before. If the idents that come with declarations are reserved ones,
each coming once, the declarations of the interface have idents of their own, and an ident stands
for the declaration that was added under it. -/
theorem builder_idents_fresh (name : String) (steps : List Builder.Step) :
    ((Builder.calls { name } steps).Pairwise fun earlier later =>
      later.Reserves → later.id ≠ earlier.id) ∧
    (Interface.ofSteps name steps).decls =
      (Builder.calls { name } steps).filterMap Builder.Call.decl? ∧
    (Builder.OwnReserved (Builder.calls { name } steps) →
      (Interface.ofSteps name steps).Distinct ∧
      ∀ call ∈ Builder.calls { name } steps, ∀ d ∈ call.decl?,
        (Interface.ofSteps name steps).get? call.id = some d) := by
  have hdecls : (Interface.ofSteps name steps).decls =
      (Builder.calls { name } steps).filterMap Builder.Call.decl? :=
    Builder.decls_run { name } steps
  refine ⟨Builder.pairwise_calls, hdecls, fun h => ?_⟩
  have hdistinct : (Interface.ofSteps name steps).Distinct := by
    rw [Interface.Distinct, hdecls, List.nodup_iff_pairwise_ne, List.pairwise_map,
      List.pairwise_filterMap]
    exact h.pairwise
  refine ⟨hdistinct, fun call hcall d hd => ?_⟩
  have hmem : d ∈ (Interface.ofSteps name steps).decls := by
    rw [hdecls]
    exact List.mem_filterMap.mpr ⟨call, hcall, hd⟩
  rw [← Builder.Call.id_of_decl? hd]
  exact Interface.get?_of_mem hdistinct hmem

/-- One ident is reserved for later, the next one goes to a declaration, and then the first one is
given to a declaration. -/
def Builder.outOfOrder : List Builder.Step :=
  [.reserve, .declare "w" (.aliasOf (.atom .u8)) none,
    .declare "late" (.aliasOf (.atom .u8)) (some ⟨0⟩)]

theorem builder_idents_fresh_outOfOrder :
    Builder.OwnReserved (Builder.calls { name := "module" } Builder.outOfOrder) ∧
      (Interface.ofSteps "module" Builder.outOfOrder).Distinct ∧
      (Interface.ofSteps "module" Builder.outOfOrder).get? ⟨0⟩ =
        some { id := ⟨0⟩, name := "late", entity := .aliasOf (.atom .u8) } := by
  have h : Builder.OwnReserved (Builder.calls { name := "module" } Builder.outOfOrder) :=
    ⟨by decide, by decide⟩
  obtain ⟨-, -, hown⟩ := builder_idents_fresh "module" Builder.outOfOrder
  obtain ⟨hdistinct, hget⟩ := hown h
  exact ⟨h, hdistinct, hget { step := .declare "late" (.aliasOf (.atom .u8)) (some ⟨0⟩), id := ⟨0⟩ }
    (by decide) _ rfl⟩

end HostDecl
