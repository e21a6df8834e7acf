import Mathlib.Data.List.Forall2
import Mathlib.Data.List.Nodup

/-!
# Lists

Facts about lists of pairs and about lists side by side that have nothing to do with declarations.
-/

namespace HostDecl

variable {α β : Type}

/-- Two lists that are related to the same list agree where everything is related only once. -/
theorem forall₂_unique {R : α → β → Prop} {xs : List α} {ys ys' : List β}
    (h : List.Forall₂ (fun x y => ∀ y', R x y' → y = y') xs ys) (h' : List.Forall₂ R xs ys') :
    ys = ys' := by
  induction h generalizing ys' with
  | nil => cases h'; rfl
  | cons hy _ ih =>
      obtain _ | ⟨hy', h'⟩ := h'
      rw [hy _ hy', ih h']

/-- A list can be put beside another one if there is something for each element. -/
theorem exists_forall₂_iff {R : α → β → Prop} {xs : List α} :
    (∃ ys, List.Forall₂ R xs ys) ↔ ∀ x ∈ xs, ∃ y, R x y := by
  induction xs with
  | nil => simp
  | cons x xs ih =>
      rw [List.forall_mem_cons, ← ih]
      constructor
      · rintro ⟨_, _ | ⟨hx, hxs⟩⟩
        exact ⟨⟨_, hx⟩, _, hxs⟩
      · rintro ⟨⟨y, hx⟩, ys, hxs⟩
        exact ⟨y :: ys, .cons hx hxs⟩

/-- In two lists side by side, everything on the left has something beside it. -/
theorem exists_right_of_forall₂ {R : α → β → Prop} {xs : List α} {ys : List β}
    (h : List.Forall₂ R xs ys) : ∀ x ∈ xs, ∃ y ∈ ys, R x y := by
  induction h with
  | nil => simp
  | cons hxy _ ih =>
      refine List.forall_mem_cons.mpr ⟨⟨_, List.mem_cons_self, hxy⟩, fun x hx => ?_⟩
      obtain ⟨y, hy, hxy⟩ := ih x hx
      exact ⟨y, List.mem_cons_of_mem _ hy, hxy⟩

/-- If something goes with the elements of both lists wherever they stand side by side, a list goes
with both. -/
theorem exists_beside_of_forall₂ {γ : Type} {P : α → γ → Prop} {Q : β → γ → Prop} {xs : List α}
    {ys : List β} (h : List.Forall₂ (fun x y => ∃ z, P x z ∧ Q y z) xs ys) :
    ∃ zs, List.Forall₂ P xs zs ∧ List.Forall₂ Q ys zs := by
  induction h with
  | nil => exact ⟨[], .nil, .nil⟩
  | cons hxy _ ih =>
      obtain ⟨z, hx, hy⟩ := hxy
      obtain ⟨zs, hxs, hys⟩ := ih
      exact ⟨z :: zs, .cons hx hxs, .cons hy hys⟩

/-- Two lists that look the same element by element look the same. -/
theorem map_eq_map_of_forall₂ {γ : Type} {f : α → γ} {g : β → γ} {xs : List α} {ys : List β}
    (h : List.Forall₂ (fun x y => f x = g y) xs ys) : xs.map f = ys.map g := by
  rw [← List.forall₂_eq_eq_eq]
  exact List.forall₂_map_left_iff.mpr (List.forall₂_map_right_iff.mpr h)

/-- If a function undoes another one where it has an answer, a list of its answers is undone element
by element. -/
theorem mapM_eq_some_iff {f : α → Option β} {g : β → α} (h : ∀ x y, f x = some y ↔ x = g y)
    (xs : List α) (ys : List β) : xs.mapM f = some ys ↔ xs = ys.map g := by
  induction xs generalizing ys with
  | nil => cases ys <;> simp
  | cons x xs ih =>
      rw [List.mapM_cons]
      cases ys with
      | nil => simp [Option.bind_eq_some_iff]
      | cons y ys => simp [Option.bind_eq_some_iff, h, ih]

/-- What holds of the second halves of pairs holds of everything that stands second. -/
theorem forall_of_zip {xs : List α} {ys : List β} {P : β → Prop} (hlen : xs.length = ys.length)
    (h : ∀ p ∈ xs.zip ys, P p.2) : ∀ y ∈ ys, P y := by
  intro y hy
  rw [← List.map_snd_zip (Nat.le_of_eq hlen.symm), List.mem_map] at hy
  obtain ⟨p, hp, rfl⟩ := hy
  exact h p hp

/-- Where no key comes twice, every pair is found under its key. -/
theorem lookup_eq_some_of_mem [BEq α] [LawfulBEq α] {pairs : List (α × β)}
    (hnodup : (pairs.map Prod.fst).Nodup) {key : α} {value : β} (h : (key, value) ∈ pairs) :
    pairs.lookup key = some value := by
  obtain ⟨front, rest, hparts⟩ := List.append_of_mem h
  refine List.lookup_eq_some_iff.mpr ⟨front, rest, hparts, fun pair hpair => ?_⟩
  rw [hparts, List.map_append, List.map_cons, List.nodup_append'] at hnodup
  rw [bne_iff_ne]
  intro heq
  exact hnodup.2.2 (List.mem_map.mpr ⟨pair, hpair, rfl⟩) (heq ▸ List.mem_cons_self)

end HostDecl
