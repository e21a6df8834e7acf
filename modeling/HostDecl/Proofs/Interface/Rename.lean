import HostDecl.Interface.Basic
import HostDecl.Proofs.Layout.LaidOut
import HostDecl.Registry
import Mathlib.Logic.Function.Basic

/-!
# Other idents for the same declarations

`Interface.rename r` gives every declaration and every reference the ident that `r` makes of its
own. Where `r` keeps different idents apart, looking up goes on as before (`get?_rename`), for
declarations as for what is remembered under idents. What an interface says in words is the same,
as long as it speaks of declarations that it has (`describe_rename`): a reference without a
declaration is written by its ident.
-/

namespace HostDecl

section

variable (r : Ident → Ident)

def TypeRef.rename : TypeRef → TypeRef
  | .atom a => .atom a
  | .decl id => .decl (r id)
  | .foreign text => .foreign text

def Field.rename (f : Field) : Field where
  name := f.name
  type := f.type.rename r

def Entity.rename : Entity → Entity
  | .aliasOf target => .aliasOf (target.rename r)
  | .struct members => .struct (members.map (Field.rename r))
  | .enum variants => .enum variants
  | .function args result => .function (args.map (Field.rename r)) (result.map (TypeRef.rename r))
  | .foreign text => .foreign text

def Decl.rename (d : Decl) : Decl where
  id := r d.id
  name := d.name
  entity := d.entity.rename r

def Interface.rename (i : Interface) : Interface where
  name := i.name
  decls := i.decls.map (Decl.rename r)

end

variable {r : Ident → Ident}

/-! ## Renaming tells declarations apart -/

theorem TypeRef.rename_injective (hr : Function.Injective r) :
    Function.Injective (TypeRef.rename r) := by
  intro type type' h
  cases type <;> cases type' <;> simp only [rename, reduceCtorEq] at h
  case decl.decl => rw [hr (TypeRef.decl.inj h)]
  all_goals exact h

theorem Field.rename_injective (hr : Function.Injective r) :
    Function.Injective (Field.rename r) := by
  rintro ⟨name, type⟩ ⟨name', type'⟩ h
  obtain ⟨hname, htype⟩ := Field.mk.inj h
  exact congrArg₂ Field.mk hname (TypeRef.rename_injective hr htype)

theorem Entity.rename_injective (hr : Function.Injective r) :
    Function.Injective (Entity.rename r) := by
  intro e e' h
  cases e <;> cases e' <;> simp only [rename, reduceCtorEq] at h
  case aliasOf.aliasOf => rw [TypeRef.rename_injective hr (Entity.aliasOf.inj h)]
  case struct.struct => rw [(Field.rename_injective hr).list_map (Entity.struct.inj h)]
  case function.function =>
    obtain ⟨hargs, hresult⟩ := Entity.function.inj h
    rw [(Field.rename_injective hr).list_map hargs,
      Option.map_injective (TypeRef.rename_injective hr) hresult]
  all_goals exact h

theorem Decl.rename_injective (hr : Function.Injective r) :
    Function.Injective (Decl.rename r) := by
  rintro ⟨id, name, entity⟩ ⟨id', name', entity'⟩ h
  obtain ⟨hid, hname, hentity⟩ := Decl.mk.inj h
  exact (Decl.mk.injEq ..).mpr ⟨hr hid, hname, Entity.rename_injective hr hentity⟩

theorem Interface.rename_injective (hr : Function.Injective r) :
    Function.Injective (Interface.rename r) := by
  rintro ⟨name, decls⟩ ⟨name', decls'⟩ h
  obtain ⟨hname, hdecls⟩ := Interface.mk.inj h
  exact congrArg₂ Interface.mk hname ((Decl.rename_injective hr).list_map hdecls)

/-! ## What renaming leaves alone -/

@[simp] theorem Entity.kind_rename (e : Entity) : (e.rename r).kind = e.kind := by
  cases e <;> rfl

@[simp] theorem Entity.isFunction_rename (e : Entity) :
    (e.rename r).isFunction = e.isFunction := by
  cases e <;> rfl

theorem Interface.functions_rename (i : Interface) :
    (i.rename r).functions = i.functions.map (Decl.rename r) := by
  simp only [functions, rename, List.filter_map]
  congr 1
  exact List.filter_congr fun d _ => Entity.isFunction_rename d.entity

@[simp] theorem TypeRef.rename_id (type : TypeRef) : type.rename (fun x => x) = type := by
  cases type <;> rfl

@[simp] theorem Entity.rename_id (e : Entity) : e.rename (fun x => x) = e := by
  have htypes : TypeRef.rename (fun x => x) = fun type => type := funext TypeRef.rename_id
  have hfields : Field.rename (fun x => x) = fun f => f := by
    funext f
    simp [Field.rename]
  cases e <;> simp [rename, htypes, hfields]

@[simp] theorem Decl.rename_id (d : Decl) : d.rename (fun x => x) = d := by
  simp [rename]

@[simp] theorem Interface.rename_id (i : Interface) : i.rename (fun x => x) = i := by
  have hdecls : Decl.rename (fun x => x) = fun d => d := funext Decl.rename_id
  simp [rename, hdecls]

/-! ## Looking up -/

/-- Under renamed keys everything is found as before. -/
theorem lookup_map_fst {α : Type} (hr : Function.Injective r) (pairs : List (Ident × α))
    (id : Ident) : (pairs.map (Prod.map r fun value => value)).lookup (r id) = pairs.lookup id := by
  induction pairs with
  | nil => rfl
  | cons pair pairs ih =>
      rw [List.map_cons, List.lookup_cons, List.lookup_cons, ih]
      have hkey : (r id == r pair.1) = (id == pair.1) := by
        rw [Bool.eq_iff_iff, beq_iff_eq, beq_iff_eq, hr.eq_iff]
      simp [hkey]

namespace Interface

variable {i : Interface}

theorem get?_rename (hr : Function.Injective r) (id : Ident) :
    (i.rename r).get? (r id) = (i.get? id).map (Decl.rename r) := by
  simp only [get?, rename, ← List.map_reverse, List.find?_map]
  congr 2
  funext d
  simp [Decl.rename, hr.eq_iff]

/-- The reference is not to a declaration that the interface does not have. -/
def Declares (i : Interface) : TypeRef → Prop
  | .decl id => (i.get? id).isSome = true
  | _ => True

theorem declares_of_mem {d : Decl} (hd : d ∈ i.decls) : i.Declares (.decl d.id) := by
  simp only [Declares, get?, List.find?_isSome, List.mem_reverse, decide_eq_true_eq]
  exact ⟨d, hd, rfl⟩

theorem nameOf_rename (hr : Function.Injective r) {id : Ident} (h : i.Declares (.decl id)) :
    (i.rename r).nameOf (r id) = i.nameOf id := by
  obtain ⟨d, hd⟩ := Option.isSome_iff_exists.mp h
  simp [nameOf, get?_rename hr, hd, Decl.rename]

theorem refText_rename (hr : Function.Injective r) {type : TypeRef} (h : i.Declares type) :
    (i.rename r).refText (type.rename r) = i.refText type := by
  cases type with
  | atom a => rfl
  | decl id => exact nameOf_rename hr h
  | foreign text => rfl

theorem fieldsText_rename (hr : Function.Injective r) {fields : List Field}
    (h : ∀ f ∈ fields, i.Declares f.type) :
    (i.rename r).fieldsText (fields.map (Field.rename r)) = i.fieldsText fields := by
  unfold fieldsText
  rw [List.map_map]
  congr 1
  refine List.map_congr_left fun f hf => ?_
  simp [Field.rename, refText_rename hr (h f hf)]

/-- A type is described in the same words if all its parts are declared. -/
theorem describe_rename (hr : Function.Injective r) {e : Entity} (he : e.isFunction = false)
    (h : ∀ type ∈ e.parts, i.Declares type) :
    (i.rename r).describe (e.rename r) = i.describe e := by
  cases e with
  | aliasOf target =>
      simp [Entity.rename, describe, refText_rename hr (h target (by simp [Entity.parts]))]
  | struct members =>
      have hmembers : ∀ f ∈ members, i.Declares f.type :=
        fun f hf => h _ (List.mem_map.mpr ⟨f, hf, rfl⟩)
      simp [Entity.rename, describe, fieldsText_rename hr hmembers]
  | enum variants => rfl
  | function args result => simp [Entity.isFunction] at he
  | foreign text => rfl

end Interface

/-! ## The registry -/

namespace Registry

variable {α : Type}

def rename (r : Ident → Ident) (reg : Registry α) : Registry α where
  entries := reg.entries.map (Prod.map r id)
  names := reg.names.map (Prod.map r id)

theorem get?_rename (hr : Function.Injective r) (reg : Registry α) (id : Ident) :
    (reg.rename r).get? (r id) = reg.get? id :=
  lookup_map_fst hr reg.entries id

end Registry

end HostDecl
