import HostDecl.Proofs.Session.Failures
import HostDecl.Session.History

/-!
# What a refused declaration leaves behind

An operation that fails leaves its session as the steps before the failure made it. Backends resolve
and define before they write, so most operations that fail leave page and registry untouched
(`Session.Untouched`). Structs are defined before their members are resolved, so that a failure
after that point leaves the struct defined, and only then (`Session.StructRefused`). Here is what
each step adds to such an argument; `FailsAs` puts the steps together.
-/

namespace HostDecl

variable {V S : Type}

/-! ## Damage -/

namespace Session

/-- Nothing has been written, and nothing has been defined. -/
structure Untouched (s t : Session V S) : Prop where
  page : t.page = s.page
  defined : t.defined = s.defined

theorem Untouched.refl (s : Session V S) : s.Untouched s :=
  ⟨rfl, rfl⟩

theorem Alike.untouched {s t : Session V S} (h : s.Alike t) : s.Untouched t :=
  ⟨h.page, h.defined⟩

/-- A struct has been refused: with nothing touched if it was no struct or has been defined before,
and otherwise with the struct as the only declaration that is defined in addition. -/
structure StructRefused (s : Session V S) (d : Decl) (fault : Fault) (t : Session V S) : Prop where
  early : fault.code? = some "CE0003" ∨ fault.code? = some "CE0001" → s.Untouched t
  late : ¬ (fault.code? = some "CE0003" ∨ fault.code? = some "CE0001") →
    d.id ∉ s.defined.idents ∧ ∃ value, t.defined = s.defined.extend d.id value d.name

theorem StructRefused.alreadyDefined (s : Session V S) (d : Decl) (name : String) (id : Ident)
    (existing : String) : s.StructRefused d (.alreadyDefined name id existing) s :=
  ⟨fun _ => .refl s, fun h => (h (.inr rfl)).elim⟩

theorem StructRefused.wrongOperation (s : Session V S) (d : Decl) (operation kind name : String) :
    s.StructRefused d (.wrongOperation operation kind name) s :=
  ⟨fun _ => .refl s, fun h => (h (.inl rfl)).elim⟩

/-- After the struct has been defined, a reference can fail. -/
theorem StructRefused.ofReference {s t : Session V S} {d : Decl} {value : V} {fault : Fault}
    (hfresh : d.id ∉ s.defined.idents) (hfault : fault.OfReference)
    (ht : t.defined = s.defined.extend d.id value d.name) : s.StructRefused d fault t := by
  refine ⟨fun hearly => ?_, fun _ => ⟨hfresh, value, ht⟩⟩
  cases hfault <;> simp [Fault.code?, Fault.message?, Message.notEmitted, Message.containsItself,
    Message.noLayout] at hearly

end Session

/-! ## Steps -/

section

open Emission

variable {i : Interface} {d : Decl} {P : Fault → Session V S → Prop} {s : Session V S}

theorem failsAs_define {valueText : V → String} {value : V}
    (h : ∀ existing, P (.alreadyDefined d.name d.id existing) s) :
    FailsAs (define valueText d value) s P := by
  intro f t hf
  rw [outcome_define] at hf
  cases hget : s.defined.get? d.id <;> rw [hget] at hf <;> cases hf
  exact h _

theorem failsAs_resolve {atomType : Atom → V} {type : TypeRef}
    (h : ∀ fault : Fault, fault.OfReference → P fault s) :
    FailsAs (resolve atomType i type) s P := by
  intro f t hf
  rw [outcome_resolve] at hf
  rcases hr : s.defined.resolve atomType type with (id | _) | value <;> rw [hr] at hf <;> cases hf
  · exact h _ (.notEmitted _ _)
  · exact h _ .notReference

theorem failsAs_layoutOf {abi : Abi} {id : Ident}
    (h : ∀ (fault : Fault) z, fault.OfReference → P fault (s.keep z)) :
    FailsAs (layoutOf abi i id) s P := by
  intro f t hf
  rw [layoutOf, outcome_askSizing] at hf
  obtain ⟨hfault, rfl⟩ := Prod.mk.inj hf
  exact h f _ (Sizing.layoutOf_fault hfault)

/-- An answer about a layout touches nothing. -/
theorem untouched_of_yields_layoutOf {abi : Abi} {id : Ident} {layout : Layout} {t : Session V S}
    (h : Yields (layoutOf abi i id) s layout t) : s.Untouched t := by
  rw [Yields, layoutOf, outcome_askSizing] at h
  obtain ⟨-, rfl⟩ := Prod.mk.inj h
  exact ⟨rfl, rfl⟩

end

/-! ## Operations -/

namespace Backend

variable {b : Backend V S} {i : Interface} {d : Decl} {P : Fault → Session V S → Prop}
  {s : Session V S}

theorem failsAs_emitAlias (h : ∀ target, FailsAs (b.aliasOf i d target) s P)
    (hwrong : P (.wrongOperation "gen_alias" d.entity.kind d.name) s) :
    FailsAs (b.emitAlias i d) s P := by
  unfold emitAlias
  split
  · exact h _
  · exact .throw hwrong

theorem failsAs_emitStruct (h : ∀ members, FailsAs (b.struct i d members) s P)
    (hwrong : P (.wrongOperation "gen_struct" d.entity.kind d.name) s) :
    FailsAs (b.emitStruct i d) s P := by
  unfold emitStruct
  split
  · exact h _
  · exact .throw hwrong

theorem failsAs_emitEnum (h : ∀ variants, FailsAs (b.enum i d variants) s P)
    (hempty : P (.noVariants d.name) s)
    (hwrong : P (.wrongOperation "gen_enum" d.entity.kind d.name) s) :
    FailsAs (b.emitEnum i d) s P := by
  unfold emitEnum
  split
  · exact .throw hempty
  · exact h _
  · exact .throw hwrong

theorem failsAs_emitFunction
    (h : b.host.emitsFunctions = true → ∀ args result, FailsAs (b.function i d args result) s P)
    (hunsupported : P (.functionsUnsupported b.host.name d.name) s)
    (hwrong : P (.wrongOperation "gen_function" d.entity.kind d.name) s) :
    FailsAs (b.emitFunction i d) s P := by
  unfold emitFunction
  split
  · rename_i hb
    split
    · exact h hb _ _
    · exact .throw hwrong
  · exact .throw hunsupported

/-! ## Requests -/

/-- Aliases and functions that are refused leave no trace. -/
structure RefusesCleanly (b : Backend V S) : Prop where
  aliasOf : ∀ (s : Session V S) i d fault t,
    b.step s (.aliasOf i d) = (.error fault, t) → s.Untouched t
  function : ∀ (s : Session V S) i d fault t,
    b.step s (.function i d) = (.error fault, t) → s.Untouched t

/-- So do enums; a struct leaves at most its own definition. -/
structure DefinesFirst (b : Backend V S) : Prop where
  enum : ∀ (s : Session V S) i d fault t,
    b.step s (.enum i d) = (.error fault, t) → s.Untouched t
  struct : ∀ (s : Session V S) i d fault t,
    b.step s (.struct i d) = (.error fault, t) → s.StructRefused d fault t

/-- A request that is done with its operation fails as the operation does. -/
theorem failsAs_done {e : Emission V S Unit} (h : FailsAs e s P) :
    FailsAs (do e; pure Answer.done) s P :=
  .bind h fun _ _ _ => .pure

theorem RefusesCleanly.of_operations
    (aliasOf : ∀ {s : Session V S} {i d target},
      FailsAs (b.aliasOf i d target) s fun _ t => s.Untouched t)
    (function : b.host.emitsFunctions = true → ∀ {s : Session V S} {i d args result},
      FailsAs (b.function i d args result) s fun _ t => s.Untouched t) : b.RefusesCleanly where
  aliasOf s _ _ := failsAs_done (failsAs_emitAlias (fun _ => aliasOf) (.refl s))
  function s _ _ :=
    failsAs_done (failsAs_emitFunction (fun hb _ _ => function hb) (.refl s) (.refl s))

theorem DefinesFirst.of_operations
    (enum : ∀ {s : Session V S} {i d variants},
      FailsAs (b.enum i d variants) s fun _ t => s.Untouched t)
    (struct : ∀ {s : Session V S} {i d members},
      FailsAs (b.struct i d members) s (s.StructRefused d)) : b.DefinesFirst where
  enum s _ _ := failsAs_done (failsAs_emitEnum (fun _ => enum) (.refl s) (.refl s))
  struct s _ d := failsAs_done (failsAs_emitStruct (fun _ => struct) (.wrongOperation s d ..))

end Backend

end HostDecl
