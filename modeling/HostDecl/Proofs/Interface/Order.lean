import HostDecl.Proofs.Layout.LaidOut
import Mathlib.Data.List.Nodup

/-!
# Declarations before their uses

A declaration can be emitted when everything it refers to has been emitted. `TypeRef.DeclaredIn`
is that condition for one reference and the declarations so far, `Interface.Ordered` for all
references of an interface. In an ordered interface every type has a layout, one declaration after
the other (`exists_laidOut`): its parts stand before it, so none of them leads back to it.
-/

namespace HostDecl

namespace Entity

/-- Aliases, structs and enums are types. -/
def isType : Entity → Bool
  | .aliasOf _ | .struct _ | .enum _ => true
  | .function .. | .foreign _ => false

/-- The types of a function's arguments and of its result. -/
def signature : Entity → List TypeRef
  | .function args result => args.map Field.type ++ result.toList
  | _ => []

/-- Aliases, structs, enums and functions are all there is, but for text that is no entity. -/
theorem isType_or_isFunction_iff {e : Entity} :
    (e.isType = true ∨ e.isFunction = true) ↔ ∀ text, e ≠ .foreign text := by
  cases e <;> simp [isType, isFunction]

/-- Everything that a declaration refers to. -/
def uses (e : Entity) : List TypeRef :=
  e.parts ++ e.signature

theorem isFunction_eq_false_of_isType {e : Entity} (h : e.isType = true) :
    e.isFunction = false := by
  cases e <;> simp_all [isType, isFunction]

theorem parts_eq_nil {e : Entity} (h : e.isFunction = true) : e.parts = [] := by
  cases e <;> simp_all [parts, isFunction]

theorem signature_eq_nil {e : Entity} (h : e.isFunction = false) : e.signature = [] := by
  cases e <;> simp_all [signature, isFunction]

section

variable {e : Entity} {target : TypeRef} {members args : List Field} {result : Option TypeRef}
  {P : TypeRef → Prop}

/-- What holds of all that a declaration refers to holds of an alias's target. -/
theorem forall_target (he : e = .aliasOf target) (h : ∀ type ∈ e.uses, P type) : P target := by
  subst he
  exact h target List.mem_cons_self

theorem forall_members (he : e = .struct members) (h : ∀ type ∈ e.uses, P type) :
    ∀ member ∈ members, P member.type := by
  subst he
  intro member hmember
  exact h _ (List.mem_append_left _ (List.mem_map.mpr ⟨member, hmember, rfl⟩))

theorem forall_args (he : e = .function args result) (h : ∀ type ∈ e.uses, P type) :
    ∀ arg ∈ args, P arg.type := by
  subst he
  intro arg harg
  exact h _ (List.mem_append_right _ (List.mem_append_left _ (List.mem_map.mpr ⟨arg, harg, rfl⟩)))

theorem forall_result (he : e = .function args result) (h : ∀ type ∈ e.uses, P type) :
    ∀ type, result = some type → P type := by
  rintro type rfl
  subst he
  exact h type (List.mem_append_right _ (List.mem_append_right _ (List.mem_singleton_self type)))

end

end Entity

/-- The reference is to an atom or to a type among the declarations. -/
def TypeRef.DeclaredIn (decls : List Decl) : TypeRef → Prop
  | .atom _ => True
  | .decl id => ∃ d ∈ decls, d.id = id ∧ d.entity.isType = true
  | .foreign _ => False

theorem TypeRef.DeclaredIn.mono {decls decls' : List Decl} {type : TypeRef}
    (h : type.DeclaredIn decls) (hsub : ∀ d ∈ decls, d ∈ decls') : type.DeclaredIn decls' := by
  cases type with
  | atom a => trivial
  | decl id =>
      obtain ⟨d, hd, hid, htype⟩ := h
      exact ⟨d, hsub d hd, hid, htype⟩
  | foreign text => exact h

namespace Interface

variable {i : Interface} {abi : Abi}

/-- No two declarations carry the same ident. -/
def Distinct (i : Interface) : Prop :=
  (i.decls.map Decl.id).Nodup

instance (i : Interface) : Decidable i.Distinct :=
  inferInstanceAs (Decidable (List.Nodup _))

/-- Of every declaration, the selected references are to atoms or to types that stand strictly
before it. -/
def Ordered (i : Interface) (refs : Entity → List TypeRef) : Prop :=
  ∀ before d after, i.decls = before ++ d :: after →
    ∀ type ∈ refs d.entity, type.DeclaredIn before

/-- What the first declarations refer to stands among them. -/
theorem Ordered.declaredIn {i : Interface} {refs : Entity → List TypeRef} (h : i.Ordered refs)
    {done todo : List Decl} (hsplit : i.decls = done ++ todo) {d : Decl} (hd : d ∈ done)
    {type : TypeRef} (htype : type ∈ refs d.entity) : type.DeclaredIn done := by
  obtain ⟨front, rest, rfl⟩ := List.append_of_mem hd
  have hfront := h front d (rest ++ todo) (by simp [hsplit]) type htype
  exact hfront.mono fun d' hd' => List.mem_append_left _ hd'

/-- What holds of a declaration as soon as it holds of the types that it refers to holds of all
declarations of an ordered interface. -/
theorem Ordered.induction {i : Interface} {refs : Entity → List TypeRef} (h : i.Ordered refs)
    {P : Decl → Prop}
    (step : ∀ d ∈ i.decls, (∀ id, .decl id ∈ refs d.entity →
      ∃ d' ∈ i.decls, d'.id = id ∧ d'.entity.isType = true ∧ P d') → P d) :
    ∀ d ∈ i.decls, P d := by
  suffices ∀ todo done, i.decls = done ++ todo → (∀ d ∈ done, P d) → ∀ d ∈ i.decls, P d from
    this i.decls [] rfl (by simp)
  intro todo
  induction todo with
  | nil =>
      intro done hsplit hdone
      rwa [hsplit, List.append_nil]
  | cons d todo ih =>
      intro done hsplit hdone
      refine ih (done ++ [d]) (by simp [hsplit]) (List.forall_mem_append.mpr ⟨hdone, ?_⟩)
      refine List.forall_mem_singleton.mpr (step d (by simp [hsplit]) fun id hid => ?_)
      obtain ⟨d', hd', hid', htype⟩ := h done d todo hsplit _ hid
      exact ⟨d', by simp [hsplit, hd'], hid', htype, hdone d' hd'⟩

/-- `Ordered`, walking through the declarations with those that stand before. -/
def OrderedAfter (refs : Entity → List TypeRef) (before : List Decl) : List Decl → Prop
  | [] => True
  | d :: decls => (∀ type ∈ refs d.entity, type.DeclaredIn before) ∧
      OrderedAfter refs (before ++ [d]) decls

theorem orderedAfter_iff {refs : Entity → List TypeRef} {before decls : List Decl} :
    OrderedAfter refs before decls ↔ ∀ done d todo, decls = done ++ d :: todo →
      ∀ type ∈ refs d.entity, type.DeclaredIn (before ++ done) := by
  induction decls generalizing before with
  | nil => simp [OrderedAfter]
  | cons d decls ih =>
      rw [OrderedAfter, ih]
      constructor
      · rintro ⟨hd, hrest⟩ done d' todo hsplit
        cases done with
        | nil =>
            obtain ⟨rfl, rfl⟩ := List.cons.inj hsplit
            simpa using hd
        | cons x done =>
            obtain ⟨rfl, rfl⟩ := List.cons.inj hsplit
            simpa using hrest done d' todo rfl
      · intro h
        refine ⟨by simpa using h [] d decls rfl, fun done d' todo hsplit => ?_⟩
        simpa using h (d :: done) d' todo (by rw [hsplit]; rfl)

theorem ordered_iff {refs : Entity → List TypeRef} :
    i.Ordered refs ↔ OrderedAfter refs [] i.decls := by
  rw [orderedAfter_iff, Ordered]
  rfl

instance (decls : List Decl) (type : TypeRef) : Decidable (type.DeclaredIn decls) :=
  match type with
  | .atom _ => inferInstanceAs (Decidable True)
  | .decl id => inferInstanceAs (Decidable (∃ d ∈ decls, d.id = id ∧ d.entity.isType = true))
  | .foreign _ => inferInstanceAs (Decidable False)

instance decidableOrderedAfter (refs : Entity → List TypeRef) :
    (before decls : List Decl) → Decidable (OrderedAfter refs before decls)
  | _, [] => inferInstanceAs (Decidable True)
  | before, d :: decls =>
    have := decidableOrderedAfter refs (before ++ [d]) decls
    inferInstanceAs (Decidable (_ ∧ _))

instance (i : Interface) (refs : Entity → List TypeRef) : Decidable (i.Ordered refs) :=
  decidable_of_iff (OrderedAfter refs [] i.decls) ordered_iff.symm

/-- Declarations of every kind, each after those it refers to. -/
def shapes : Interface where
  name := "shapes"
  decls := [
    { id := ⟨1⟩, name := "length", entity := .aliasOf (.atom .f64) },
    { id := ⟨2⟩, name := "color", entity := .enum ["red", "dark_blue"] },
    { id := ⟨3⟩, name := "line", entity := .struct [⟨"from", .decl ⟨1⟩⟩, ⟨"ink", .decl ⟨2⟩⟩] },
    { id := ⟨4⟩, name := "draw", entity := .function [⟨"what", .decl ⟨3⟩⟩] none }]

theorem get?_of_mem (hi : i.Distinct) {d : Decl} (hd : d ∈ i.decls) : i.get? d.id = some d := by
  cases h : i.get? d.id with
  | none =>
      have := List.find?_eq_none.mp h d (List.mem_reverse.mpr hd)
      simp at this
  | some d' => rw [List.inj_on_of_nodup_map hi (mem_of_get? h) hd (id_of_get? h)]

/-- With one ident for each declaration, an ident that is declared among some declarations stands
for one of these. -/
theorem mem_of_declaredIn (hi : i.Distinct) {decls : List Decl} (hsub : ∀ d ∈ decls, d ∈ i.decls)
    {id : Ident} (h : (TypeRef.decl id).DeclaredIn decls) :
    ∃ d ∈ decls, i.get? id = some d ∧ d.entity.isType = true := by
  obtain ⟨d, hd, rfl, htype⟩ := h
  exact ⟨d, hd, get?_of_mem hi (hsub d hd), htype⟩

/-! ## Layouts of ordered declarations -/

/-- A reference to one of the declarations has a layout when these have layouts. -/
theorem laidOut_of_declaredIn {decls : List Decl}
    (h : ∀ d ∈ decls, d.entity.isType = true → ∃ layout, i.LaidOut abi (.decl d.id) layout)
    {type : TypeRef} (htype : type.DeclaredIn decls) : ∃ layout, i.LaidOut abi type layout := by
  cases type with
  | atom a => exact ⟨_, .atom a⟩
  | decl id =>
      obtain ⟨d, hd, rfl, ht⟩ := htype
      exact h d hd ht
  | foreign text => exact htype.elim

theorem exists_forall₂_laidOut {members : List Field}
    (h : ∀ member ∈ members, ∃ layout, i.LaidOut abi member.type layout) :
    ∃ layouts, List.Forall₂ (fun member l => i.LaidOut abi member.type l) members layouts := by
  induction members with
  | nil => exact ⟨[], .nil⟩
  | cons member members ih =>
      obtain ⟨hl, hrest⟩ := List.forall_mem_cons.mp h
      obtain ⟨l, hl⟩ := hl
      obtain ⟨ls, hls⟩ := ih hrest
      exact ⟨l :: ls, .cons hl hls⟩

/-- A type whose parts are declared among declarations with layouts has a layout. -/
theorem exists_laidOut {decls : List Decl}
    (h : ∀ d ∈ decls, d.entity.isType = true → ∃ layout, i.LaidOut abi (.decl d.id) layout)
    {d : Decl} (hd : i.get? d.id = some d) (htype : d.entity.isType = true)
    (hparts : ∀ type ∈ d.entity.parts, type.DeclaredIn decls) :
    ∃ layout, i.LaidOut abi (.decl d.id) layout := by
  cases he : d.entity with
  | aliasOf target =>
      obtain ⟨l, hl⟩ := laidOut_of_declaredIn h (hparts target (by simp [he, Entity.parts]))
      exact ⟨l, .aliasOf hd he hl⟩
  | struct members =>
      have hmembers : ∀ member ∈ members, ∃ layout, i.LaidOut abi member.type layout := by
        intro member hmember
        refine laidOut_of_declaredIn h (hparts member.type ?_)
        rw [he]
        exact List.mem_map.mpr ⟨member, hmember, rfl⟩
      obtain ⟨ls, hls⟩ := exists_forall₂_laidOut hmembers
      exact ⟨_, .struct' hd he hls⟩
  | enum variants => exact ⟨_, .enum hd he⟩
  | function args result => simp [he, Entity.isType] at htype
  | foreign text => simp [he, Entity.isType] at htype

end Interface

end HostDecl
