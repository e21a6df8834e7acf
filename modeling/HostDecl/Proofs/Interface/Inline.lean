import HostDecl.Proofs.Interface.Order

/-!
# Aliases put in place

`Interface.mapTypes f` is the interface in which every reference is the one that `f` makes of it: in
members, in targets and in signatures. What is declared, under which ident and in which order stays
the same. `Interface.inline a r` is the case where references to `a` become `r`, for an alias `a` of
`r`; the alias itself stays, and is an alias of `r` as before (`IsAlias.inline`).
-/

namespace HostDecl

/-! ## Other references in the same declarations -/

section

variable (f : TypeRef → TypeRef)

def Field.mapType (field : Field) : Field where
  name := field.name
  type := f field.type

def Entity.mapTypes : Entity → Entity
  | .aliasOf target => .aliasOf (f target)
  | .struct members => .struct (members.map (Field.mapType f))
  | .enum variants => .enum variants
  | .function args result => .function (args.map (Field.mapType f)) (result.map f)
  | .foreign text => .foreign text

def Decl.mapTypes (d : Decl) : Decl where
  id := d.id
  name := d.name
  entity := d.entity.mapTypes f

def Interface.mapTypes (i : Interface) : Interface where
  name := i.name
  decls := i.decls.map (Decl.mapTypes f)

end

variable {f : TypeRef → TypeRef} {e : Entity} {d : Decl} {i : Interface}

namespace Entity

@[simp] theorem isType_mapTypes : (e.mapTypes f).isType = e.isType := by
  cases e <;> rfl

@[simp] theorem isFunction_mapTypes : (e.mapTypes f).isFunction = e.isFunction := by
  cases e <;> rfl

theorem parts_mapTypes : (e.mapTypes f).parts = e.parts.map f := by
  cases e <;> simp [mapTypes, parts, Field.mapType]

theorem signature_mapTypes : (e.mapTypes f).signature = e.signature.map f := by
  cases e <;> simp [mapTypes, signature, Field.mapType, Option.toList_map]

theorem uses_mapTypes : (e.mapTypes f).uses = e.uses.map f := by
  rw [uses, uses, parts_mapTypes, signature_mapTypes, List.map_append]

theorem mapTypes_eq_aliasOf {target : TypeRef} (h : e.mapTypes f = .aliasOf target) :
    ∃ target', e = .aliasOf target' ∧ target = f target' := by
  cases e <;> simp only [mapTypes, reduceCtorEq] at h
  exact ⟨_, rfl, (aliasOf.inj h).symm⟩

theorem mapTypes_eq_struct {members : List Field} (h : e.mapTypes f = .struct members) :
    ∃ members', e = .struct members' ∧ members = members'.map (Field.mapType f) := by
  cases e <;> simp only [mapTypes, reduceCtorEq] at h
  exact ⟨_, rfl, (struct.inj h).symm⟩

theorem mapTypes_eq_enum {variants : List String} (h : e.mapTypes f = .enum variants) :
    e = .enum variants := by
  cases e <;> simp only [mapTypes, reduceCtorEq] at h
  exact h

end Entity

namespace Interface

theorem get?_mapTypes (id : Ident) :
    (i.mapTypes f).get? id = (i.get? id).map (Decl.mapTypes f) := by
  simp only [get?, mapTypes, ← List.map_reverse, List.find?_map]
  rfl

theorem Distinct.mapTypes (hi : i.Distinct) : (i.mapTypes f).Distinct := by
  rw [Distinct, Interface.mapTypes, List.map_map]
  exact hi

end Interface

/-! ## One alias -/

/-- The reference, or `r` in place of a reference to `a`. -/
def TypeRef.inline (a : Ident) (r : TypeRef) (type : TypeRef) : TypeRef :=
  if type = .decl a then r else type

namespace Interface

variable {a : Ident} {r : TypeRef}

/-- The interface with `r` in place of every reference to `a`. -/
def inline (i : Interface) (a : Ident) (r : TypeRef) : Interface :=
  i.mapTypes (TypeRef.inline a r)

/-- The ident stands for an alias of the reference. -/
def IsAlias (i : Interface) (a : Ident) (r : TypeRef) : Prop :=
  ∃ d, i.get? a = some d ∧ d.entity = .aliasOf r

/-- An alias that is not one of itself is left alone. -/
theorem IsAlias.inline (h : i.IsAlias a r) (hr : r ≠ .decl a) : (i.inline a r).IsAlias a r := by
  obtain ⟨d, hd, he⟩ := h
  refine ⟨d.mapTypes (.inline a r), ?_, ?_⟩
  · rw [Interface.inline, get?_mapTypes, hd]
    rfl
  · rw [Decl.mapTypes, he, Entity.mapTypes, TypeRef.inline, if_neg hr]

end Interface

end HostDecl
