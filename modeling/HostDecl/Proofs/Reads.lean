import HostDecl.Proofs.Lists

/-!
# What a reader accepts and what it refuses

A reader has an answer or fails with a reason. `Reads x good bad` says of which answers and of which
reasons it is exactly: the answer is what is `good`, and the reason is what is `bad`. The rules
follow the steps of a reader. As a step is only taken when the one before it has an answer, a
failure of two steps is one of the first, or one of the second after an answer of the first; and a
failure for a list is one at an element such that all elements before it are read (`FirstIn`).
-/

namespace HostDecl

variable {ε α β : Type}

/-- The reader answers exactly what is good, and fails exactly for what is bad. -/
structure Reads (x : Except ε α) (good : α → Prop) (bad : ε → Prop) : Prop where
  ok_iff : ∀ a, x = .ok a ↔ good a
  error_iff : ∀ e, x = .error e ↔ bad e

/-- Something is bad about an element of the list, and nothing about those before it. -/
def FirstIn (fine : α → Prop) (bad : α → ε → Prop) (xs : List α) (e : ε) : Prop :=
  ∃ before x after, xs = before ++ x :: after ∧ (∀ y ∈ before, fine y) ∧ bad x e

theorem firstIn_nil {fine : α → Prop} {bad : α → ε → Prop} {e : ε} :
    FirstIn fine bad [] e ↔ False := by
  simp [FirstIn]

theorem firstIn_cons {fine : α → Prop} {bad : α → ε → Prop} {x : α} {xs : List α} {e : ε} :
    FirstIn fine bad (x :: xs) e ↔ bad x e ∨ fine x ∧ FirstIn fine bad xs e := by
  constructor
  · rintro ⟨before, y, after, hxs, hfine, hbad⟩
    cases before with
    | nil =>
        obtain ⟨rfl, -⟩ := List.cons.inj hxs
        exact .inl hbad
    | cons z before =>
        obtain ⟨rfl, rfl⟩ := List.cons.inj hxs
        obtain ⟨hz, hbefore⟩ := List.forall_mem_cons.mp hfine
        exact .inr ⟨hz, before, y, after, rfl, hbefore, hbad⟩
  · rintro (hbad | ⟨hx, before, y, after, rfl, hbefore, hbad⟩)
    · exact ⟨[], x, xs, rfl, by simp, hbad⟩
    · exact ⟨x :: before, y, after, rfl, List.forall_mem_cons.mpr ⟨hx, hbefore⟩, hbad⟩

namespace Reads

theorem congr {x : Except ε α} {good good' : α → Prop} {bad bad' : ε → Prop}
    (h : Reads x good bad) (hgood : ∀ a, good a ↔ good' a) (hbad : ∀ e, bad e ↔ bad' e) :
    Reads x good' bad' :=
  ⟨fun a => (h.ok_iff a).trans (hgood a), fun e => (h.error_iff e).trans (hbad e)⟩

/-- Whatever a reader does is exactly what it does. -/
theorem self {x : Except ε α} : Reads x (x = .ok ·) (x = .error ·) :=
  ⟨fun _ => Iff.rfl, fun _ => Iff.rfl⟩

theorem ok {a : α} : Reads (.ok a : Except ε α) (· = a) (fun _ => False) :=
  ⟨fun b => by rw [Except.ok.injEq, eq_comm], fun e => by simp⟩

theorem error {e : ε} : Reads (.error e : Except ε α) (fun _ => False) (· = e) :=
  ⟨fun a => by simp, fun e' => by rw [Except.error.injEq, eq_comm]⟩

/-- There is an answer exactly if something is good. -/
theorem exists_ok_iff {x : Except ε α} {good : α → Prop} {bad : ε → Prop}
    (h : Reads x good bad) : (∃ a, x = .ok a) ↔ ∃ a, good a :=
  exists_congr h.ok_iff

theorem bind {x : Except ε α} {f : α → Except ε β} {good : α → Prop} {bad : ε → Prop}
    {good' : α → β → Prop} {bad' : α → ε → Prop} (hx : Reads x good bad)
    (hf : ∀ a, good a → Reads (f a) (good' a) (bad' a)) :
    Reads (x >>= f) (fun b => ∃ a, good a ∧ good' a b)
      (fun e => bad e ∨ ∃ a, good a ∧ bad' a e) := by
  cases x with
  | error e =>
      have hnone (a : α) : ¬ good a := fun ha => by cases (hx.ok_iff a).mpr ha
      have hbad (e' : ε) : e' = e ↔ bad e' := by
        rw [← hx.error_iff, Except.error.injEq, eq_comm]
      exact error.congr (fun b => by simp [hnone]) fun e' => by simp [hnone, hbad]
  | ok a =>
      have hgood (b : α) : good b ↔ b = a := by
        rw [← hx.ok_iff, Except.ok.injEq, eq_comm]
      have hnone (e : ε) : ¬ bad e := fun he => by cases (hx.error_iff e).mpr he
      exact (hf a ((hgood a).mpr rfl)).congr (fun b => by simp [hgood]) fun e => by
        simp [hgood, hnone]

theorem map {x : Except ε α} {f : α → β} {good : α → Prop} {bad : ε → Prop}
    (hx : Reads x good bad) :
    Reads (f <$> x) (fun b => ∃ a, good a ∧ b = f a) bad := by
  have h : Reads (f <$> x) _ _ := hx.bind fun a _ => ok
  exact h.congr (fun b => Iff.rfl) fun e => by simp

/-- A list is read element by element. -/
theorem mapM {f : α → Except ε β} {good : α → β → Prop} {bad : α → ε → Prop}
    (hf : ∀ x, Reads (f x) (good x) (bad x)) (xs : List α) :
    Reads (xs.mapM f) (List.Forall₂ good xs) (FirstIn (fun x => ∃ b, good x b) bad xs) := by
  induction xs with
  | nil => exact ok.congr (fun bs => List.forall₂_nil_left_iff.symm) fun e => firstIn_nil.symm
  | cons x xs ih =>
      rw [List.mapM_cons]
      refine ((hf x).bind fun b _ => ih.bind fun bs _ => ok).congr (fun bs => ?_) fun e => ?_
      · constructor
        · rintro ⟨b, hb, bs', hbs, rfl⟩
          exact .cons hb hbs
        · rintro (_ | ⟨hb, hbs⟩)
          exact ⟨_, hb, _, hbs, rfl⟩
      · rw [firstIn_cons]
        simp only [and_false, exists_false, or_false, exists_and_right]

end Reads

end HostDecl
