import HostDecl.Proofs.Backend.C
import HostDecl.Proofs.Backend.Rust
import HostDecl.Proofs.Backend.Uniform
import HostDecl.Proofs.Session.Growth
import HostDecl.Proofs.Session.Refusals

/-!
# What each backend leaves behind when it refuses

All backends resolve what an alias or a function refers to before they define or write anything,
and from then on nothing can fail. Rust and C define enums first of all, with the same effect.
Structs they define before they resolve the members. IR is different for enums and structs: they use
names that can be taken, which shows only when the declaration is half written.

A session can be asked for anything, and some of it fails. What has been written and defined before
stays, whatever comes (`Backend.GrowsOnly`). A single request that fails leaves at most a little
behind: nothing for aliases and functions, on any host, and nothing for enums in Rust and C, where a
struct leaves at most its own definition (`Backend.RefusesCleanly`, `Backend.DefinesFirst`).
-/

namespace HostDecl

variable {config : Config} {i : Interface} {d : Decl}

/-! ## Rust -/

namespace Rust

variable {s : Session String Unit} {P : Fault → Session String Unit → Prop}

theorem failsAs_defineName (h : ∀ existing, P (.alreadyDefined d.name d.id existing) s) :
    FailsAs (defineName d) s P :=
  .bind (failsAs_define h) fun _ _ _ => .pure

theorem failsAs_emitAlias {target : TypeRef} :
    FailsAs (emitAlias i d target) s fun _ t => s.Untouched t := by
  refine .bind (failsAs_resolve fun _ _ => .refl s) fun _ t ht => ?_
  obtain ⟨-, -, rfl⟩ := yields_resolve.mp ht
  obtain ⟨u, hu, halike⟩ := yields_checkWidening .rust target { declaration := d.name } t
  refine .bind (.of_yields hu) fun _ v hv => ?_
  obtain ⟨-, rfl⟩ := hv.unique hu
  exact .bind (failsAs_defineName fun _ => halike.untouched) fun _ _ _ => failsAs_lastLine _ 0

theorem failsAs_emitEnum {variants : List String} :
    FailsAs (emitEnum config i d variants) s fun _ t => s.Untouched t := by
  by_cases h : d.id ∈ s.defined.idents
  · exact .bind (failsAs_defineName fun _ => .refl s)
      fun _ _ ht => ((yields_defineName.mp ht).1 h).elim
  · obtain ⟨t, ht⟩ := yields_emitEnum.1.mpr h
    exact .of_yields ht

theorem failsAs_emitMember {member : Field}
    (h : ∀ (fault : Fault) t, fault.OfReference → t.defined = s.defined → P fault t) :
    FailsAs (emitMember i d member) s P := by
  obtain ⟨u, hu, halike⟩ := yields_checkWidening .rust member.type
    { declaration := d.name, member := some member.name } s
  refine .bind (.of_yields hu) fun _ v hv => ?_
  obtain ⟨-, rfl⟩ := hv.unique hu
  refine .bind (failsAs_resolve fun fault hfault => ?_) fun _ _ _ => failsAs_line _ 1
  exact h fault v hfault halike.defined

theorem failsAs_emitStruct {members : List Field} :
    FailsAs (emitStruct config i d members) s (s.StructRefused d) := by
  refine .bind (failsAs_defineName (.alreadyDefined s d _ _)) fun _ t ht => ?_
  obtain ⟨hfresh, -, rfl⟩ := yields_defineName.mp ht
  -- From here on the struct is defined, and nothing else is.
  refine .bind (failsAs_layoutOf fun fault z hfault => .ofReference hfresh hfault rfl)
    fun _ u hu => ?_
  have hdefined := (untouched_of_yields_layoutOf hu).defined
  refine .bind (failsAs_line _ 0) fun _ v hv => ?_
  obtain rfl := yields_line.mp hv
  refine .bind (failsAs_block ?_) fun _ _ _ => failsAs_endBlock
  refine .forM (I := fun _ w => w.defined = u.defined) ?_ ?_ rfl
  · intro _ member _ w _ hw
    refine failsAs_emitMember fun fault x hfault hx => ?_
    exact .ofReference hfresh hfault ((hx.trans hw).trans hdefined)
  · intro _ member _ w x _ hw hx
    exact ((yields_emitMember member rfl).2 x hx).defined.trans hw

theorem refusesCleanly (config : Config) : (backend config).RefusesCleanly :=
  .of_operations failsAs_emitAlias nofun

theorem definesFirst (config : Config) : (backend config).DefinesFirst :=
  .of_operations failsAs_emitEnum failsAs_emitStruct

end Rust

/-! ## C -/

namespace C

variable {s : Session String Unit} {P : Fault → Session String Unit → Prop}

theorem failsAs_emitAlias {target : TypeRef} :
    FailsAs (emitAlias i d target) s fun _ t => s.Untouched t := by
  refine .bind (failsAs_resolve fun _ _ => .refl s) fun _ t ht => ?_
  obtain ⟨-, -, rfl⟩ := yields_resolve.mp ht
  exact .bind (failsAs_define fun _ => .refl t) fun _ _ _ => failsAs_lastLine _ 0

theorem failsAs_emitEnum {variants : List String} :
    FailsAs (emitEnum config i d variants) s fun _ t => s.Untouched t := by
  by_cases h : d.id ∈ s.defined.idents
  · exact .bind (failsAs_define fun _ => .refl s)
      fun _ _ ht => ((yields_define.mp ht).1 h).elim
  · exact .of_yields (yields_emitEnum.mpr ⟨h, rfl⟩)

theorem failsAs_emitMember {member : Field}
    (h : ∀ (fault : Fault) t, fault.OfReference → t.defined = s.defined → P fault t) :
    FailsAs (emitMember i member) s P :=
  .bind (failsAs_resolve fun fault hfault => h fault s hfault rfl) fun _ _ _ => failsAs_line _ 1

theorem failsAs_emitStruct {members : List Field} :
    FailsAs (emitStruct config i d members) s (s.StructRefused d) := by
  refine .bind (failsAs_define (.alreadyDefined s d _ _)) fun _ t ht => ?_
  obtain ⟨hfresh, rfl⟩ := yields_define.mp ht
  -- From here on the struct is defined, and nothing else is.
  refine .bind (failsAs_block ?_) fun _ u hu => ?_
  · refine .forM (I := fun _ v => v.defined = s.defined.extend d.id _ d.name) ?_ ?_ rfl
    · intro _ member _ v _ hv
      exact failsAs_emitMember fun fault w hfault hw => .ofReference hfresh hfault (hw.trans hv)
    · intro _ member _ v w _ hv hw
      obtain ⟨-, rfl⟩ := (yields_emitMember member rfl).mp hw
      exact hv
  obtain ⟨lines, rfl⟩ := print_of_yields_block hu
  refine .bind (failsAs_layoutOf fun fault z hfault => .ofReference hfresh hfault rfl)
    fun _ _ _ => ?_
  refine .bind (failsAs_line _ 0) fun _ _ _ => .bind (failsAs_line _ 0) fun _ _ _ => ?_
  exact .bind (.forM_any fun (_, _) _ _ => failsAs_line _ 0) fun _ _ _ => failsAs_endBlock

/-- The parameters of a function are only looked up. -/
theorem failsAs_params {args : List Field} :
    FailsAs (args.mapM fun arg => do
      let type ← resolve i arg.type
      pure (type ++ " " ++ Rules.c.fieldName arg.name)) s fun _ t => s.Untouched t := by
  refine .mapM (I := fun t => t = s) ?_ ?_ rfl
  · rintro arg - _ rfl
    exact .bind (failsAs_resolve fun _ _ => .refl _) fun _ _ _ => .pure
  · rintro arg - _ param t rfl h
    obtain ⟨type, u, hu, hpure⟩ := yields_bind.mp h
    obtain ⟨-, -, rfl⟩ := yields_resolve.mp hu
    exact (yields_pure.mp hpure).2

theorem failsAs_emitFunction {args : List Field} {result : Option TypeRef} :
    FailsAs (emitFunction i d args result) s fun _ t => s.Untouched t := by
  cases result
  case' none =>
    refine .bind .pure fun resultName t ht => ?_
    obtain ⟨-, rfl⟩ := yields_pure.mp ht
  case' some type =>
    refine .bind (failsAs_resolve fun _ _ => .refl s) fun resultName t ht => ?_
    obtain ⟨-, -, rfl⟩ := yields_resolve.mp ht
  all_goals
    exact .bind failsAs_params fun params u _ => failsAs_lastLine _ 0

theorem refusesCleanly (config : Config) : (backend config).RefusesCleanly :=
  .of_operations failsAs_emitAlias fun _ => failsAs_emitFunction

theorem definesFirst (config : Config) : (backend config).DefinesFirst :=
  .of_operations failsAs_emitEnum failsAs_emitStruct

end C

/-! ## LLVM IR -/

namespace Llvm

open Ir

variable {s : Session IrType Scope}

theorem failsAs_emitAlias {target : TypeRef} :
    FailsAs (emitAlias i d target) s fun _ t => s.Untouched t := by
  refine .bind (failsAs_resolve fun _ _ => .refl s) fun _ t ht => ?_
  obtain ⟨-, -, rfl⟩ := yields_resolve.mp ht
  exact .bind (failsAs_define fun _ => .refl t) fun _ _ _ => failsAs_lastLine _ 0

theorem failsAs_argTypes {args : List Field} :
    FailsAs (args.mapM fun arg => resolve i arg.type) s fun _ t => s.Untouched t := by
  refine .mapM (I := fun t => t = s) ?_ ?_ rfl
  · rintro arg - _ rfl
    exact failsAs_resolve fun _ _ => .refl _
  · rintro arg - _ type t rfl h
    exact (yields_resolve.mp h).2.2

theorem failsAs_useGlobal (name : String) :
    FailsAs (useGlobal name) s fun _ t => s.Untouched t :=
  .guarded fun _ => .refl s

/-- The name of a function is used before its line is written, and after that nothing can fail. -/
theorem failsAs_emitFunction {args : List Field} {result : Option TypeRef} :
    FailsAs (emitFunction i d args result) s fun _ t => s.Untouched t := by
  cases result
  case' none =>
    refine .bind .pure fun resultType t ht => ?_
    obtain ⟨-, rfl⟩ := yields_pure.mp ht
  case' some type =>
    refine .bind (failsAs_resolve fun _ _ => .refl s) fun resultType t ht => ?_
    obtain ⟨-, -, rfl⟩ := yields_resolve.mp ht
  all_goals
    refine .bind failsAs_argTypes fun types u hu => ?_
    obtain ⟨-, -, rfl⟩ := (yields_mapM_read (fun arg type v => yields_resolve) args).mp hu
    exact .bind (failsAs_useGlobal _) fun _ _ _ => failsAs_lastLine _ 0

theorem refusesCleanly (config : Config) : (backend config).RefusesCleanly :=
  .of_operations failsAs_emitAlias fun _ => failsAs_emitFunction

end Llvm

/-! ## Histories with failures -/

/-- For every host, sessions grow only, and failures leave bounded damage. -/
theorem failures_leave_bounded_damage (config : Config) :
    ((Rust.backend config).GrowsOnly ∧ (C.backend config).GrowsOnly ∧
      (Llvm.backend config).GrowsOnly) ∧
    ((Rust.backend config).RefusesCleanly ∧ (C.backend config).RefusesCleanly ∧
      (Llvm.backend config).RefusesCleanly) ∧
    (Rust.backend config).DefinesFirst ∧ (C.backend config).DefinesFirst :=
  ⟨⟨Backend.growsOnly (Rust.uniform config), Backend.growsOnly (C.uniform config),
      Backend.growsOnly (Llvm.uniform config)⟩,
    ⟨Rust.refusesCleanly config, C.refusesCleanly config, Llvm.refusesCleanly config⟩,
    Rust.definesFirst config, C.definesFirst config⟩

end HostDecl
