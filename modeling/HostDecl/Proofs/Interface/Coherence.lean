import HostDecl.Proofs.Interface.Format
import HostDecl.Proofs.Interface.Order
import HostDecl.Proofs.Lists

/-!
# Interfaces that hang together

In a coherent interface every reference is to an atom or to a type of the interface, wherever that
stands, every enum has a variant, and no ident comes twice. The order of the declarations is left
open, and a type may contain itself.

Whatever a description describes is coherent (`Describes.coherent`): idents are positions, and a
type name stands for an entry that is not a function or for an atom.
-/

namespace HostDecl

namespace Interface

/-- Every reference of the interface leads somewhere, and every declaration declares something. -/
structure Coherent (i : Interface) : Prop where
  distinct : i.Distinct
  native : ∀ d ∈ i.decls, ∀ text, d.entity ≠ .foreign text
  inhabited : ∀ d ∈ i.decls, d.entity ≠ .enum []
  declared : ∀ d ∈ i.decls, ∀ type ∈ d.entity.uses, type.DeclaredIn i.decls

end Interface

namespace Description

variable {hs : List Heading} {h : Heading} {e : Entity}

/-! ## Idents -/

theorem Headings.ids_nodup {entries : List Toml.Value} (hhs : Headings entries hs) :
    (hs.map Heading.id).Nodup := by
  have hindices : entries.zipIdx.map Prod.snd = hs.map Heading.index :=
    map_eq_map_of_forall₂ (hhs.heads.imp fun _ _ hh => hh.index.symm)
  have hnodup : (hs.map Heading.index).Nodup := by
    rw [← hindices, List.zipIdx_map_snd]
    exact List.nodup_range'
  have hinj : Function.Injective fun index : Nat => (⟨index⟩ : Ident) :=
    fun _ _ heq => Int.ofNat.inj (Ident.mk.inj heq)
  have hids : hs.map Heading.id = (hs.map Heading.index).map fun index : Nat => ⟨index⟩ := by
    rw [List.map_map]
    rfl
  rw [hids]
  exact hnodup.map hinj

/-! ## References -/

section

variable {P : TypeRef → Prop}

theorem FieldsAt.forall {t : Toml.Table} {key : String} {fields : List Field}
    (hfields : FieldsAt hs t key fields) (hP : ∀ name type, Names hs name type → P type) :
    ∀ type ∈ fields.map Field.type, P type := by
  obtain ⟨tables, -, hall⟩ := hfields
  refine List.forall_mem_map.mpr fun field hfield => ?_
  obtain ⟨table, -, hfieldAt⟩ := exists_right_of_forall₂ hall.flip field hfield
  obtain ⟨name, -, hname⟩ := hfieldAt.type
  exact hP name _ hname

/-- What a declaration refers to are names of its description. -/
theorem EntityAt.forall_uses (he : EntityAt hs h e)
    (hP : ∀ name type, Names hs name type → P type) : ∀ type ∈ e.uses, P type := by
  unfold EntityAt at he
  cases hkind : h.kind <;> rw [hkind] at he
  case aliasOf =>
    obtain ⟨target, ⟨name, -, hname⟩, rfl⟩ := he
    simpa [Entity.uses, Entity.parts, Entity.signature] using hP name target hname
  case struct =>
    obtain ⟨members, hmembers, rfl⟩ := he
    simpa [Entity.uses, Entity.parts, Entity.signature] using hmembers.forall hP
  case enum =>
    obtain ⟨variants, -, rfl⟩ := he
    simp [Entity.uses, Entity.parts, Entity.signature]
  case function =>
    obtain ⟨args, hargs, result, hresult, rfl⟩ := he
    refine List.forall_mem_append.mpr ⟨by simp [Entity.parts], ?_⟩
    refine List.forall_mem_append.mpr ⟨hargs.forall hP, ?_⟩
    rcases hresult with _ | ⟨-, name, -, hname⟩
    · simp
    · simpa using hP name _ hname

end

/-- What is described is of a kind that there is: an entry that is not a function is a type, and an
enum has variants. -/
theorem EntityAt.shape (he : EntityAt hs h e) : (h.kind ≠ .function → e.isType = true) ∧
    (∀ text, e ≠ .foreign text) ∧ e ≠ .enum [] := by
  unfold EntityAt at he
  cases hkind : h.kind <;> rw [hkind] at he
  case aliasOf =>
    obtain ⟨target, -, rfl⟩ := he
    exact ⟨fun _ => rfl, nofun, nofun⟩
  case struct =>
    obtain ⟨members, -, rfl⟩ := he
    exact ⟨fun _ => rfl, nofun, nofun⟩
  case enum =>
    obtain ⟨variants, ⟨-, hne⟩, rfl⟩ := he
    exact ⟨fun _ => rfl, nofun, fun heq => hne (Entity.enum.inj heq)⟩
  case function =>
    obtain ⟨args, -, result, -, rfl⟩ := he
    exact ⟨fun hne => (hne rfl).elim, nofun, nofun⟩

/-! ## Descriptions -/

/-- A name refers to one of the declarations, or to an atom. -/
theorem Names.declaredIn {decls : List Decl} (hdecls : List.Forall₂ (DeclAt hs) hs decls)
    {name : String} {type : TypeRef} (hname : Names hs name type) : type.DeclaredIn decls := by
  rcases hname with ⟨hmem, hkind⟩ | _
  · obtain ⟨d, hd, hdecl⟩ := exists_right_of_forall₂ hdecls _ hmem
    exact ⟨d, hd, hdecl.id, hdecl.entity.shape.1 hkind⟩
  · trivial

theorem Describes.coherent {defaultName : String} {t : Toml.Table} {i : Interface}
    (h : Describes defaultName t i) : i.Coherent := by
  obtain ⟨-, entries, hs, -, hheadings, hdecls⟩ := h
  have hentity : ∀ d ∈ i.decls, ∃ h, EntityAt hs h d.entity := fun d hd =>
    have ⟨h, _, hdecl⟩ := exists_right_of_forall₂ hdecls.flip d hd
    ⟨h, hdecl.entity⟩
  refine ⟨?_, fun d hd => (hentity d hd).elim fun _ he => he.shape.2.1,
    fun d hd => (hentity d hd).elim fun _ he => he.shape.2.2, fun d hd => ?_⟩
  · have hids : hs.map Heading.id = i.decls.map Decl.id :=
      map_eq_map_of_forall₂ (hdecls.imp fun _ _ hdecl => hdecl.id.symm)
    rw [Interface.Distinct, ← hids]
    exact hheadings.ids_nodup
  · obtain ⟨h, he⟩ := hentity d hd
    exact he.forall_uses fun _ _ => Names.declaredIn hdecls

end Description

end HostDecl
