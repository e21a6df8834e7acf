import HostDecl.Proofs.Outcome

/-!
# Two actions in step

What an action does may be held against what another one does. `InStep I E R e e'` says that from
states that go together, as `I` says, both actions answer or both fail: with answers that are
related by `R` or failures that are related by `E`, and in states that go together again. The
lemmas follow the steps of an action, so two actions of one shape are in step when their steps are.

With the same action on both sides this says what the action does not depend on.
-/

namespace HostDecl

variable {ε ε' σ σ' α α' β β' : Type} {I : σ → σ' → Prop} {E : ε → ε' → Prop}
  {R : α → α' → Prop}

/-- Two outcomes of one kind, with related answers or failures and related states. -/
inductive Matched (I : σ → σ' → Prop) (E : ε → ε' → Prop) (R : α → α' → Prop) :
    Except ε α × σ → Except ε' α' × σ' → Prop
  | ok {a : α} {a' : α'} {s : σ} {s' : σ'} (h : R a a') (hs : I s s') :
      Matched I E R (.ok a, s) (.ok a', s')
  | error {x : ε} {x' : ε'} {s : σ} {s' : σ'} (h : E x x') (hs : I s s') :
      Matched I E R (.error x, s) (.error x', s')

theorem Matched.mono {R' : α → α' → Prop} {r : Except ε α × σ} {r' : Except ε' α' × σ'}
    (h : Matched I E R r r') (hR : ∀ a a', R a a' → R' a a') : Matched I E R' r r' := by
  cases h with
  | ok h hs => exact .ok (hR _ _ h) hs
  | error h hs => exact .error h hs

theorem Matched.weaken {J : σ → σ' → Prop} {r : Except ε α × σ} {r' : Except ε' α' × σ'}
    (h : Matched I E R r r') (hI : ∀ s s', I s s' → J s s') : Matched J E R r r' := by
  cases h with
  | ok h hs => exact .ok h (hI _ _ hs)
  | error h hs => exact .error h (hI _ _ hs)

/-- From states that go together, the actions come to outcomes that go together. -/
def InStep (I : σ → σ' → Prop) (E : ε → ε' → Prop) (R : α → α' → Prop)
    (e : ExceptT ε (StateM σ) α) (e' : ExceptT ε' (StateM σ') α') : Prop :=
  ∀ s s', I s s' → Matched I E R (outcome e s) (outcome e' s')

namespace InStep

theorem mono {R' : α → α' → Prop} {e : ExceptT ε (StateM σ) α} {e' : ExceptT ε' (StateM σ') α'}
    (h : InStep I E R e e') (hR : ∀ a a', R a a' → R' a a') : InStep I E R' e e' :=
  fun s s' hs => (h s s' hs).mono hR

/-! ## Steps -/

theorem pure {a : α} {a' : α'} (h : R a a') : InStep I E R (pure a) (pure a') :=
  fun _ _ hs => .ok h hs

theorem throw {x : ε} {x' : ε'} (h : E x x') : InStep I E R (throw x) (throw x') :=
  fun _ _ hs => .error h hs

theorem bind {Q : β → β' → Prop} {e : ExceptT ε (StateM σ) α} {e' : ExceptT ε' (StateM σ') α'}
    {f : α → ExceptT ε (StateM σ) β} {f' : α' → ExceptT ε' (StateM σ') β'}
    (h : InStep I E R e e') (hf : ∀ a a', R a a' → InStep I E Q (f a) (f' a')) :
    InStep I E Q (e >>= f) (e' >>= f') := by
  intro s s' hs
  have hfirst := h s s' hs
  rw [outcome_bind, outcome_bind]
  generalize outcome e s = r, outcome e' s' = r' at hfirst
  cases hfirst with
  | ok ha ht => exact hf _ _ ha _ _ ht
  | error hx ht => exact .error hx ht

/-! ## Lists of actions -/

/-- Two loops, where the second goes over the images of what the first goes over. What each turn
establishes holds of every element in the end. -/
theorem forM {P : α → Prop} {f : α → ExceptT ε (StateM σ) Unit} {g : α → α'}
    {f' : α' → ExceptT ε' (StateM σ') Unit} (xs : List α)
    (h : ∀ x ∈ xs, InStep I E (fun _ _ => P x) (f x) (f' (g x))) :
    InStep I E (fun _ _ => ∀ x ∈ xs, P x) (xs.forM f) ((xs.map g).forM f') := by
  induction xs with
  | nil => exact .pure (by simp)
  | cons x xs ih =>
      obtain ⟨hx, hxs⟩ := List.forall_mem_cons.mp h
      refine .bind hx fun _ _ hP => (ih hxs).mono fun _ _ hall => ?_
      exact List.forall_mem_cons.mpr ⟨hP, hall⟩

/-- Two loops over the same list. -/
theorem forM_same {f : α → ExceptT ε (StateM σ) Unit} {f' : α → ExceptT ε' (StateM σ') Unit}
    (xs : List α) (h : ∀ x ∈ xs, InStep I E (fun _ _ => True) (f x) (f' x)) :
    InStep I E (fun _ _ => True) (xs.forM f) (xs.forM f') := by
  have hall := forM (P := fun _ => True) (g := fun x => x) xs h
  rw [List.map_id'] at hall
  exact hall.mono fun _ _ _ => trivial

/-- Two lists of actions with the same answers. -/
theorem mapM {P : α → Prop} {f : α → ExceptT ε (StateM σ) β} {g : α → α'}
    {f' : α' → ExceptT ε' (StateM σ') β} (xs : List α)
    (h : ∀ x ∈ xs, InStep I E (fun b b' => b' = b ∧ P x) (f x) (f' (g x))) :
    InStep I E (fun bs bs' => bs' = bs ∧ ∀ x ∈ xs, P x) (xs.mapM f) ((xs.map g).mapM f') := by
  induction xs with
  | nil => exact .pure (by simp)
  | cons x xs ih =>
      obtain ⟨hx, hxs⟩ := List.forall_mem_cons.mp h
      rw [List.map_cons, List.mapM_cons, List.mapM_cons]
      refine .bind hx ?_
      rintro b _ ⟨rfl, hP⟩
      refine .bind (ih hxs) ?_
      rintro bs _ ⟨rfl, hall⟩
      exact .pure ⟨rfl, List.forall_mem_cons.mpr ⟨hP, hall⟩⟩

end InStep

end HostDecl
