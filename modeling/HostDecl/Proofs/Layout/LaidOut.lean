import HostDecl.Layout.Sizing
import HostDecl.Proofs.Lists
import Mathlib.Logic.Relation

/-!
# Which references have a layout

`Interface.LaidOut i abi type layout` says what the layout of a reference is without saying how it
is found: an atom has the layout of its token, an alias that of its target, a struct that of its
members in order, an enum that of the discriminant. No calculator, no cache and no order of visits
takes part, so every way to compute layouts can be held against it.

A reference has at most one layout (`LaidOut.unique`), and a declaration with a layout never
contains itself, directly or through others (`LaidOut.not_contains_self`): a derivation is a finite
tree, and walking from a declaration to its parts walks down that tree.
-/

namespace HostDecl

/-- What a declaration holds by value: the target of an alias, the members of a struct. -/
def Entity.parts : Entity → List TypeRef
  | .aliasOf target => [target]
  | .struct members => members.map Field.type
  | _ => []

namespace Interface

variable {i : Interface} {abi : Abi}

/-- The declaration of `outer` holds that of `inner` by value. -/
def Contains (i : Interface) (outer inner : Ident) : Prop :=
  ∃ d, i.get? outer = some d ∧ .decl inner ∈ d.entity.parts

inductive LaidOut (i : Interface) (abi : Abi) : TypeRef → Layout → Prop
  | atom (a : Atom) : LaidOut i abi (.atom a) (abi.atomLayout a)
  | aliasOf {id : Ident} {d : Decl} {target : TypeRef} {layout : Layout}
      (hd : i.get? id = some d) (he : d.entity = .aliasOf target)
      (h : LaidOut i abi target layout) : LaidOut i abi (.decl id) layout
  | struct {id : Ident} {d : Decl} {members : List Field} {layouts : List Layout}
      (hd : i.get? id = some d) (he : d.entity = .struct members)
      (hlen : members.length = layouts.length)
      (h : ∀ p ∈ members.zip layouts, LaidOut i abi p.1.type p.2) :
      LaidOut i abi (.decl id) (.ofMembers layouts)
  | enum {id : Ident} {d : Decl} {variants : List String}
      (hd : i.get? id = some d) (he : d.entity = .enum variants) :
      LaidOut i abi (.decl id) (abi.atomLayout abi.discriminant)

namespace LaidOut

/-! ## Inversion -/

theorem ofAlias {id : Ident} {d : Decl} {target : TypeRef} {layout : Layout}
    (h : i.LaidOut abi (.decl id) layout) (hd : i.get? id = some d)
    (he : d.entity = .aliasOf target) : i.LaidOut abi target layout := by
  cases h with
  | aliasOf hd' he' h =>
      obtain rfl := Option.some.inj (hd'.symm.trans hd)
      cases he'.symm.trans he
      exact h
  | struct hd' he' _ _ =>
      obtain rfl := Option.some.inj (hd'.symm.trans hd)
      cases he'.symm.trans he
  | enum hd' he' =>
      obtain rfl := Option.some.inj (hd'.symm.trans hd)
      cases he'.symm.trans he

theorem ofStruct {id : Ident} {d : Decl} {members : List Field} {layout : Layout}
    (h : i.LaidOut abi (.decl id) layout) (hd : i.get? id = some d)
    (he : d.entity = .struct members) :
    ∃ layouts, layout = .ofMembers layouts ∧
      List.Forall₂ (fun member l => i.LaidOut abi member.type l) members layouts := by
  cases h with
  | aliasOf hd' he' _ =>
      obtain rfl := Option.some.inj (hd'.symm.trans hd)
      cases he'.symm.trans he
  | @struct _ _ _ layouts hd' he' hlen h =>
      obtain rfl := Option.some.inj (hd'.symm.trans hd)
      cases he'.symm.trans he
      exact ⟨layouts, rfl, List.forall₂_iff_zip.mpr ⟨hlen, fun hp => h _ hp⟩⟩
  | enum hd' he' =>
      obtain rfl := Option.some.inj (hd'.symm.trans hd)
      cases he'.symm.trans he

theorem ofEnum {id : Ident} {d : Decl} {variants : List String} {layout : Layout}
    (h : i.LaidOut abi (.decl id) layout) (hd : i.get? id = some d)
    (he : d.entity = .enum variants) : layout = abi.atomLayout abi.discriminant := by
  cases h with
  | aliasOf hd' he' _ =>
      obtain rfl := Option.some.inj (hd'.symm.trans hd)
      cases he'.symm.trans he
  | struct hd' he' _ _ =>
      obtain rfl := Option.some.inj (hd'.symm.trans hd)
      cases he'.symm.trans he
  | enum hd' he' => rfl

/-- The struct rule with the members and their layouts side by side. -/
theorem struct' {id : Ident} {d : Decl} {members : List Field} {layouts : List Layout}
    (hd : i.get? id = some d) (he : d.entity = .struct members)
    (h : List.Forall₂ (fun member l => i.LaidOut abi member.type l) members layouts) :
    i.LaidOut abi (.decl id) (.ofMembers layouts) :=
  .struct hd he h.length_eq fun _ hp => (List.forall₂_iff_zip.mp h).2 hp

/-- Only types have layouts. -/
theorem exists_get? {id : Ident} {layout : Layout} (h : i.LaidOut abi (.decl id) layout) :
    ∃ d, i.get? id = some d ∧ ∀ args result, d.entity ≠ .function args result := by
  cases h with
  | aliasOf hd he _ => exact ⟨_, hd, by simp [he]⟩
  | struct hd he _ _ => exact ⟨_, hd, by simp [he]⟩
  | enum hd he => exact ⟨_, hd, by simp [he]⟩

/-- A layout is the same in every interface that has the declarations. -/
theorem mono {i' : Interface} (hsub : ∀ id d, i.get? id = some d → i'.get? id = some d)
    {type : TypeRef} {layout : Layout} (h : i.LaidOut abi type layout) :
    i'.LaidOut abi type layout := by
  induction h with
  | atom a => exact .atom a
  | aliasOf hd he _ ih => exact .aliasOf (hsub _ _ hd) he ih
  | struct hd he hlen _ ih => exact .struct (hsub _ _ hd) he hlen ih
  | enum hd he => exact .enum (hsub _ _ hd) he

/-! ## At most one layout -/

theorem unique {type : TypeRef} {layout layout' : Layout} (h : i.LaidOut abi type layout)
    (h' : i.LaidOut abi type layout') : layout = layout' := by
  induction h generalizing layout' with
  | atom a => cases h'; rfl
  | aliasOf hd he _ ih => exact ih (h'.ofAlias hd he)
  | @struct id d members layouts hd he hlen h ih =>
      obtain ⟨layouts', rfl, hall⟩ := h'.ofStruct hd he
      rw [forall₂_unique (List.forall₂_iff_zip.mpr ⟨hlen, fun hp l' => ih _ hp⟩) hall]
  | enum hd he => exact (h'.ofEnum hd he).symm

/-! ## No declaration with a layout contains itself -/

/-- The parts of a declaration with a layout can be walked only finitely far. -/
theorem acc {type : TypeRef} {layout : Layout} (h : i.LaidOut abi type layout) :
    ∀ id, type = .decl id → Acc (fun inner outer => i.Contains outer inner) id := by
  induction h with
  | atom a =>
      intro id h
      cases h
  | aliasOf hd he _ ih =>
      rintro id ⟨⟩
      refine ⟨_, fun inner ⟨d', hd', hpart⟩ => ?_⟩
      obtain rfl := Option.some.inj (hd'.symm.trans hd)
      rw [he] at hpart
      exact ih inner (List.mem_singleton.mp hpart).symm
  | @struct _ d members layouts hd he hlen _ ih =>
      rintro id ⟨⟩
      refine ⟨_, fun inner ⟨d', hd', hpart⟩ => ?_⟩
      obtain rfl := Option.some.inj (hd'.symm.trans hd)
      rw [he] at hpart
      obtain ⟨member, hmember, htype⟩ := List.mem_map.mp hpart
      rw [← List.map_fst_zip (Nat.le_of_eq hlen), List.mem_map] at hmember
      obtain ⟨p, hp, rfl⟩ := hmember
      exact ih p hp inner htype
  | enum hd he =>
      rintro id ⟨⟩
      refine ⟨_, fun inner ⟨d', hd', hpart⟩ => ?_⟩
      obtain rfl := Option.some.inj (hd'.symm.trans hd)
      simp [he, Entity.parts] at hpart

theorem not_contains_self {id : Ident} {layout : Layout}
    (h : i.LaidOut abi (.decl id) layout) : ¬ Relation.TransGen i.Contains id id := by
  have hacc := (h.acc id rfl).transGen
  induction hacc with
  | intro id _ ih =>
      intro hself
      exact ih id (Relation.transGen_swap.mpr hself) h hself

/-- No member of a struct with a layout is the struct itself. -/
theorem member_ne_self {id : Ident} {layout : Layout} (h : i.LaidOut abi (.decl id) layout)
    {d : Decl} (hd : i.get? id = some d) {members : List Field} (he : d.entity = .struct members)
    {member : Field} (hmember : member ∈ members) : member.type ≠ .decl id := by
  intro htype
  refine h.not_contains_self (.single ⟨d, hd, ?_⟩)
  rw [he, Entity.parts, ← htype]
  exact List.mem_map.mpr ⟨member, hmember, rfl⟩

end LaidOut

end Interface

end HostDecl
