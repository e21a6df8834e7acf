import HostDecl.Proofs.Outcome

/-!
# Which failures an action can come to

`FailsAs e s P` says that whatever the action `e` fails with in the state `s`, the fault and the
state that is left are as `P` says; `FailsOnly e s E` speaks of the fault alone. Neither says
anything about answers. The rules follow the steps of an action: later steps only have to be looked
at in the states that the earlier ones leave when they succeed, and `Yields` tells which these are.
A loop has an invariant for the elements that are done.
-/

namespace HostDecl

variable {ε σ α β : Type}

/-- Whatever the action fails with in the state, and whatever state it leaves then, is as `P`
says. -/
def FailsAs (e : ExceptT ε (StateM σ) α) (s : σ) (P : ε → σ → Prop) : Prop :=
  ∀ x t, outcome e s = (.error x, t) → P x t

namespace FailsAs

variable {P : ε → σ → Prop} {s : σ}

/-- An action that succeeds does not fail. -/
theorem of_yields {e : ExceptT ε (StateM σ) α} {a : α} {t : σ} (h : Yields e s a t) :
    FailsAs e s P := by
  intro x u hx
  rw [Yields, hx] at h
  cases h

theorem guarded {p : σ → Prop} [DecidablePred p] {x : ε} {f : σ → σ} (h : p s → P x s) :
    FailsAs (do if p (← get) then throw x else modify f : ExceptT ε (StateM σ) Unit) s P := by
  intro y t hy
  rw [outcome_guarded] at hy
  split at hy <;> cases hy
  rename_i hrefused
  exact h hrefused

theorem pure {a : α} : FailsAs (pure a : ExceptT ε (StateM σ) α) s P :=
  of_yields (yields_pure.mpr ⟨rfl, rfl⟩)

theorem throw {x : ε} (h : P x s) : FailsAs (throw x : ExceptT ε (StateM σ) α) s P := by
  intro y t hy
  rw [outcome_throw] at hy
  cases hy
  exact h

theorem bind {e : ExceptT ε (StateM σ) α} {f : α → ExceptT ε (StateM σ) β}
    (he : FailsAs e s P) (hf : ∀ a t, Yields e s a t → FailsAs (f a) t P) :
    FailsAs (e >>= f) s P := by
  intro x u hx
  rw [outcome_bind] at hx
  rcases h : outcome e s with ⟨y | a, t⟩ <;> rw [h] at hx
  · cases hx
    exact he _ _ h
  · exact hf a t h x u hx

/-! ## Lists of actions -/

/-- A loop fails as one of its turns does. -/
theorem forM {f : α → ExceptT ε (StateM σ) Unit} {I : List α → σ → Prop} {xs : List α}
    (hf : ∀ done x todo s, xs = done ++ x :: todo → I done s → FailsAs (f x) s P)
    (step : ∀ done x todo s t, xs = done ++ x :: todo → I done s → Yields (f x) s () t →
      I (done ++ [x]) t)
    (hs : I [] s) : FailsAs (xs.forM f) s P := by
  suffices ∀ todo done s, xs = done ++ todo → I done s → FailsAs (todo.forM f) s P from
    this xs [] s rfl hs
  intro todo
  induction todo with
  | nil => exact fun _ _ _ _ => .pure
  | cons x todo ih =>
      intro done s hxs hI
      refine .bind (hf done x todo s hxs hI) fun _ t ht => ?_
      exact ih (done ++ [x]) t (by simp [hxs]) (step done x todo s t hxs hI ht)

/-- A loop whose turns fail only so in every state. -/
theorem forM_any {f : α → ExceptT ε (StateM σ) Unit} {xs : List α}
    (hf : ∀ x ∈ xs, ∀ s, FailsAs (f x) s P) : FailsAs (xs.forM f) s P :=
  .forM (I := fun _ _ => True) (fun _ x _ s hxs _ => hf x (by simp [hxs]) s)
    (fun _ _ _ _ _ _ _ _ => trivial) trivial

/-- A list of actions, each of which keeps to the states of `I` when it succeeds. -/
theorem mapM {f : α → ExceptT ε (StateM σ) β} {I : σ → Prop} {xs : List α}
    (hf : ∀ x ∈ xs, ∀ s, I s → FailsAs (f x) s P)
    (step : ∀ x ∈ xs, ∀ s b t, I s → Yields (f x) s b t → I t) (hs : I s) :
    FailsAs (xs.mapM f) s P := by
  induction xs generalizing s with
  | nil => exact .pure
  | cons x xs ih =>
      obtain ⟨hx, hxs⟩ := List.forall_mem_cons.mp hf
      obtain ⟨hstep, hsteps⟩ := List.forall_mem_cons.mp step
      rw [List.mapM_cons]
      refine .bind (hx s hs) fun b t ht => ?_
      exact .bind (ih hxs hsteps (hstep s b t hs ht)) fun _ _ _ => .pure

end FailsAs

/-- In the state, the action fails with nothing but what is in `E`. -/
def FailsOnly (e : ExceptT ε (StateM σ) α) (s : σ) (E : ε → Prop) : Prop :=
  ∀ x t, outcome e s = (.error x, t) → E x

namespace FailsOnly

variable {E : ε → Prop} {s : σ}

theorem mono {E' : ε → Prop} {e : ExceptT ε (StateM σ) α} (h : FailsOnly e s E)
    (hE : ∀ x, E x → E' x) : FailsOnly e s E' :=
  fun x t hx => hE x (h x t hx)

/-- An action that succeeds does not fail. -/
theorem of_yields {e : ExceptT ε (StateM σ) α} {a : α} {t : σ} (h : Yields e s a t) :
    FailsOnly e s E :=
  FailsAs.of_yields h

theorem guarded {p : σ → Prop} [DecidablePred p] {x : ε} {f : σ → σ} (h : p s → E x) :
    FailsOnly (do if p (← get) then throw x else modify f : ExceptT ε (StateM σ) Unit) s E :=
  FailsAs.guarded h

theorem pure {a : α} : FailsOnly (pure a : ExceptT ε (StateM σ) α) s E :=
  FailsAs.pure

theorem throw {x : ε} (h : E x) : FailsOnly (throw x : ExceptT ε (StateM σ) α) s E :=
  FailsAs.throw h

theorem bind {e : ExceptT ε (StateM σ) α} {f : α → ExceptT ε (StateM σ) β}
    (he : FailsOnly e s E) (hf : ∀ a t, Yields e s a t → FailsOnly (f a) t E) :
    FailsOnly (e >>= f) s E :=
  FailsAs.bind he hf

/-! ## Lists of actions -/

/-- A loop fails as one of its turns does. -/
theorem forM {f : α → ExceptT ε (StateM σ) Unit} {P : List α → σ → Prop} {xs : List α}
    (hf : ∀ done x todo s, xs = done ++ x :: todo → P done s → FailsOnly (f x) s E)
    (step : ∀ done x todo s t, xs = done ++ x :: todo → P done s → Yields (f x) s () t →
      P (done ++ [x]) t)
    (hs : P [] s) : FailsOnly (xs.forM f) s E :=
  FailsAs.forM hf step hs

/-- A loop whose turns fail only so in every state. -/
theorem forM_any {f : α → ExceptT ε (StateM σ) Unit} {xs : List α}
    (hf : ∀ x ∈ xs, ∀ s, FailsOnly (f x) s E) : FailsOnly (xs.forM f) s E :=
  FailsAs.forM_any hf

theorem mapM_any {f : α → ExceptT ε (StateM σ) β} {xs : List α}
    (hf : ∀ x ∈ xs, ∀ s, FailsOnly (f x) s E) : FailsOnly (xs.mapM f) s E :=
  FailsAs.mapM (I := fun _ => True) (fun x hx s _ => hf x hx s) (fun _ _ _ _ _ _ _ => trivial)
    trivial

end FailsOnly

end HostDecl
