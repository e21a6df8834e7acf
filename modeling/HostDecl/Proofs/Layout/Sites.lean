import HostDecl.Proofs.Interface.Order
import HostDecl.Report.Diagnostic

/-!
# Where the atoms of layouts stand

Every layout is made of the layouts of atoms. `Interface.sites` lists, in the order of the
declarations and of their members, the places from which an atom can get into a layout: the targets
of aliases, the members of structs and, for each enum, the discriminant.

An atom gets into layouts at any depth, through aliases, structs and enums, but always from one of
these places. So two ABIs that agree on the atoms that stand there directly give the same layouts
(`LaidOut.of_mentions`).
-/

namespace HostDecl

/-- A reference that a declaration is laid out by, and where it stands. -/
structure Site where
  type : TypeRef
  location : Location
  deriving DecidableEq, Repr

/-- The references that a declaration is laid out by, in order. -/
def Decl.sites (discriminant : Atom) (d : Decl) : List Site :=
  match d.entity with
  | .aliasOf target => [{ type := target, location := { declaration := d.name } }]
  | .struct members => members.map fun member =>
      { type := member.type, location := { declaration := d.name, member := some member.name } }
  | .enum _ => [{ type := .atom discriminant, location := { declaration := d.name } }]
  | .function .. | .foreign _ => []

namespace Decl

variable {d : Decl} {discriminant a : Atom}

theorem sites_of_isFunction (h : d.entity.isFunction = true) : d.sites discriminant = [] := by
  unfold sites
  cases he : d.entity <;> simp_all [Entity.isFunction]

/-- An atom stands at a site of a declaration if it is a part of the declaration, or the
discriminant of an enum. -/
theorem exists_site_iff : (∃ site ∈ d.sites discriminant, site.type = .atom a) ↔
    .atom a ∈ d.entity.parts ∨ discriminant = a ∧ ∃ variants, d.entity = .enum variants := by
  unfold sites
  cases d.entity with
  | aliasOf target => simp [Entity.parts, eq_comm]
  | struct members => simp [Entity.parts]
  | enum variants => simp [Entity.parts]
  | function args result => simp [Entity.parts]
  | foreign text => simp [Entity.parts]

end Decl

namespace Interface

variable {i : Interface} {abi abi' : Abi} {discriminant a : Atom}

/-- The references that the declarations of an interface are laid out by, in order. -/
def sites (i : Interface) (discriminant : Atom) : List Site :=
  i.decls.flatMap (Decl.sites discriminant)

/-- An alias's target or a struct's member is directly the atom, or there is an enum and the atom is
the discriminant. -/
def Mentions (i : Interface) (discriminant a : Atom) : Prop :=
  (∃ d ∈ i.decls, .atom a ∈ d.entity.parts) ∨
    discriminant = a ∧ ∃ d ∈ i.decls, ∃ variants, d.entity = .enum variants

/-- What an interface mentions stands at one of its sites. -/
theorem mentions_iff :
    i.Mentions discriminant a ↔ ∃ site ∈ i.sites discriminant, site.type = .atom a := by
  have hsites : (∃ site ∈ i.sites discriminant, site.type = .atom a) ↔
      ∃ d ∈ i.decls, ∃ site ∈ d.sites discriminant, site.type = .atom a := by
    simp only [sites, List.mem_flatMap, ← exists_and_right, and_assoc]
    rw [exists_comm]
    simp only [exists_and_left]
  rw [hsites]
  simp only [Decl.exists_site_iff, and_or_left, exists_or, Mentions, and_left_comm,
    exists_and_left]

/-- With the same discriminant and the same layouts for all atoms that are mentioned, everything has
the same layout. -/
theorem LaidOut.of_mentions (hdisc : abi'.discriminant = abi.discriminant)
    (hatoms : ∀ a, i.Mentions abi.discriminant a → abi'.atomLayout a = abi.atomLayout a)
    {type : TypeRef} {layout : Layout} (h : i.LaidOut abi type layout)
    (htype : ∀ a, type = .atom a → i.Mentions abi.discriminant a) :
    i.LaidOut abi' type layout := by
  -- The parts of a declaration are mentioned if they are atoms, so the induction can go on.
  have hpart : ∀ {d : Decl} {type : TypeRef}, d ∈ i.decls → type ∈ d.entity.parts →
      ∀ a, type = .atom a → i.Mentions abi.discriminant a := by
    rintro d _ hd hmem a rfl
    exact .inl ⟨d, hd, hmem⟩
  induction h with
  | atom a =>
      rw [← hatoms a (htype a rfl)]
      exact .atom a
  | aliasOf hd he _ ih =>
      exact .aliasOf hd he (ih (hpart (mem_of_get? hd) (by simp [he, Entity.parts])))
  | @struct id d members layouts hd he hlen h ih =>
      refine .struct hd he hlen fun p hp => ih p hp (hpart (mem_of_get? hd) ?_)
      rw [he]
      exact List.mem_map.mpr ⟨p.1, (List.of_mem_zip hp).1, rfl⟩
  | @enum id d variants hd he =>
      rw [← hatoms _ (.inr ⟨rfl, d, mem_of_get? hd, variants, he⟩), ← hdisc]
      exact .enum hd he

end Interface

end HostDecl
