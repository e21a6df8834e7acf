import HostDecl.Proofs.Interface.Inline
import HostDecl.Proofs.Layout.Cache

/-!
# Aliases do not show in layouts

A reference to an alias is laid out as what it is an alias of. So the layouts of an interface stay
the same if the one is put in place of the other (`laidOut_inline`). The containment graphs of the
two interfaces differ, and so do the walks through them; but an alias in a derivation of `LaidOut`
is one step that can be taken or left out.
-/

namespace HostDecl

namespace Interface

variable {i : Interface} {abi : Abi} {f : TypeRef → TypeRef} {a : Ident} {r type : TypeRef}
  {layout : Layout}

/-! ## Other references -/

/-- Layouts stay if the new references have the layouts of the old ones. -/
theorem LaidOut.mapTypes
    (hf : ∀ type layout, (i.mapTypes f).LaidOut abi type layout →
      (i.mapTypes f).LaidOut abi (f type) layout)
    (h : i.LaidOut abi type layout) : (i.mapTypes f).LaidOut abi type layout := by
  have hget : ∀ {id : Ident} {d : Decl}, i.get? id = some d →
      (i.mapTypes f).get? id = some (d.mapTypes f) := by
    intro id d hd
    rw [get?_mapTypes, hd]
    rfl
  induction h with
  | atom a => exact .atom a
  | aliasOf hd he _ ih =>
      exact .aliasOf (hget hd) (by rw [Decl.mapTypes, he, Entity.mapTypes]) (hf _ _ ih)
  | @struct id d members layouts hd he hlen _ ih =>
      refine .struct' (hget hd) (by rw [Decl.mapTypes, he, Entity.mapTypes]) ?_
      exact List.forall₂_map_left_iff.mpr
        (List.forall₂_iff_zip.mpr ⟨hlen, fun hp => hf _ _ (ih _ hp)⟩)
  | enum hd he => exact .enum (hget hd) (by rw [Decl.mapTypes, he, Entity.mapTypes])

/-- No new layouts come up if the old references have the layouts of the new ones. -/
theorem LaidOut.of_mapTypes
    (hf : ∀ type layout, i.LaidOut abi (f type) layout → i.LaidOut abi type layout)
    (h : (i.mapTypes f).LaidOut abi type layout) : i.LaidOut abi type layout := by
  have hget : ∀ {id : Ident} {d : Decl}, (i.mapTypes f).get? id = some d →
      ∃ d', i.get? id = some d' ∧ d.entity = d'.entity.mapTypes f := by
    intro id d hd
    rw [get?_mapTypes] at hd
    obtain ⟨d', hd', rfl⟩ := Option.map_eq_some_iff.mp hd
    exact ⟨d', hd', rfl⟩
  induction h with
  | atom a => exact .atom a
  | aliasOf hd he _ ih =>
      obtain ⟨d', hd', heq⟩ := hget hd
      obtain ⟨target, he', rfl⟩ := Entity.mapTypes_eq_aliasOf (heq.symm.trans he)
      exact .aliasOf hd' he' (hf _ _ ih)
  | struct hd he hlen _ ih =>
      obtain ⟨d', hd', heq⟩ := hget hd
      obtain ⟨members, he', rfl⟩ := Entity.mapTypes_eq_struct (heq.symm.trans he)
      have hmembers := List.forall₂_map_left_iff.mp
        (List.forall₂_iff_zip.mpr ⟨hlen, fun hp => ih _ hp⟩)
      exact .struct' hd' he' (hmembers.imp fun _ _ hl => hf _ _ hl)
  | enum hd he =>
      obtain ⟨d', hd', heq⟩ := hget hd
      exact .enum hd' (Entity.mapTypes_eq_enum (heq.symm.trans he))

/-! ## An alias and its target -/

/-- An alias has the layouts of its target. -/
theorem IsAlias.laidOut_iff (h : i.IsAlias a r) :
    i.LaidOut abi (.decl a) layout ↔ i.LaidOut abi r layout := by
  obtain ⟨d, hd, he⟩ := h
  exact ⟨fun hl => hl.ofAlias hd he, fun hl => .aliasOf hd he hl⟩

/-- Putting the target in place of an alias leaves the layouts of a reference. -/
theorem IsAlias.laidOut_inline_iff (h : i.IsAlias a r) :
    i.LaidOut abi (.inline a r type) layout ↔ i.LaidOut abi type layout := by
  unfold TypeRef.inline
  split
  · rename_i htype
    rw [htype]
    exact h.laidOut_iff.symm
  · rfl

/-- All layouts stay if the target of an alias is put in its place everywhere. -/
theorem laidOut_inline (h : i.IsAlias a r) (hr : r ≠ .decl a) :
    (i.inline a r).LaidOut abi type layout ↔ i.LaidOut abi type layout :=
  ⟨.of_mapTypes fun _ _ => h.laidOut_inline_iff.mp,
    .mapTypes fun _ _ => (h.inline hr).laidOut_inline_iff.mpr⟩

/-- Where two interfaces have the same layouts, calculators answer the same. -/
theorem layoutOf_congr {i' : Interface} {id : Ident}
    (h : ∀ layout, i'.LaidOut abi (.decl id) layout ↔ i.LaidOut abi (.decl id) layout) :
    i'.layoutOf abi id = i.layoutOf abi id := by
  by_cases hl : ∃ layout, i.LaidOut abi (.decl id) layout
  · obtain ⟨layout, hl⟩ := hl
    rw [hl.layoutOf_eq, ((h layout).mpr hl).layoutOf_eq]
  · have hnone : ∀ layout, ¬ i.LaidOut abi (.decl id) layout := not_exists.mp hl
    rw [layoutOf_eq_empty hnone, layoutOf_eq_empty fun layout hl => hnone layout ((h layout).mp hl)]

end Interface

end HostDecl
