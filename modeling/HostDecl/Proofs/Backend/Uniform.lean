import HostDecl.Backend.C
import HostDecl.Backend.Llvm
import HostDecl.Backend.Rust
import HostDecl.Proofs.Session.Coupling

/-!
# The backends work through the steps of a session alone

Each emission of each backend is followed step by step, in two sessions at once. What is written
depends on names, host types and layouts, which are the same in both; idents are handed on to the
registry and to the calculator, and nothing else is done with them. So all three backends are
uniform.
-/

namespace HostDecl

variable {r : Ident → Ident} {i : Interface} {E : Fault → Fault → Prop} {known : TypeRef → Prop}
  {admitted : Decl → Prop} {config : Config} {d : Decl}

namespace Rust

variable {I : Session String Unit → Session String Unit → Prop}

theorem inStep_defineName (c : Coupling (backend config) r i I E known admitted)
    (hd : admitted d) :
    InStep I E (fun name name' => name' = name) (defineName d) (defineName (d.rename r)) :=
  .bind (c.define d (Rules.rust.typeName d.name) hd) fun _ _ _ => .pure rfl

theorem inStep_emitAlias (c : Coupling (backend config) r i I E known admitted)
    (hd : admitted d) (target : TypeRef) :
    InStep I E (fun _ _ => known target)
      (emitAlias i d target) (emitAlias (i.rename r) (d.rename r) (target.rename r)) := by
  refine .bind (c.resolve target) ?_
  rintro _ targetName ⟨rfl, htarget⟩
  refine .bind (c.checkWidening target _) fun _ _ _ => ?_
  refine .bind (inStep_defineName c hd) ?_
  rintro _ name rfl
  refine .bind (c.line _ 0) fun _ _ _ => ?_
  exact c.endBlock.mono fun _ _ _ => htarget

theorem inStep_emitMember (c : Coupling (backend config) r i I E known admitted)
    (member : Field) : InStep I E (fun _ _ => known member.type)
      (emitMember i d member) (emitMember (i.rename r) (d.rename r) (member.rename r)) := by
  refine .bind (c.checkWidening member.type _) fun _ _ _ => ?_
  refine .bind (c.resolve member.type) ?_
  rintro _ type ⟨rfl, htype⟩
  exact (c.line _ 1).mono fun _ _ _ => htype

theorem inStep_emitStruct (c : Coupling (backend config) r i I E known admitted)
    (hd : admitted d) (members : List Field) :
    InStep I E (fun _ _ => ∀ member ∈ members, known member.type)
      (emitStruct config i d members)
      (emitStruct config (i.rename r) (d.rename r) (members.map (Field.rename r))) := by
  refine .bind (inStep_defineName c hd) ?_
  rintro _ name rfl
  refine .bind (c.layoutOf d.id) fun _ _ _ => ?_
  refine .bind (c.line _ 0) fun _ _ _ => ?_
  refine .bind (c.block _ _ (.forM members fun member _ => inStep_emitMember c member)) ?_
  exact fun _ _ hmembers => c.endBlock.mono fun _ _ _ => hmembers

theorem inStep_emitEnum (c : Coupling (backend config) r i I E known admitted)
    (hd : admitted d) (variants : List String) :
    InStep I E (fun _ _ => True) (emitEnum config i d variants)
      (emitEnum config (i.rename r) (d.rename r) variants) := by
  refine .bind (inStep_defineName c hd) ?_
  rintro _ name rfl
  refine .bind (c.checkWidening (.atom config.discriminant.val) _) fun _ _ _ => ?_
  refine .bind (c.resolve (.atom config.discriminant.val)) ?_
  rintro _ reprName ⟨rfl, -⟩
  refine .bind (c.line _ 0) fun _ _ _ => .bind (c.line _ 0) fun _ _ _ => ?_
  have hvariants := InStep.forM_same variants fun variant _ =>
    c.line (Rules.rust.variantName variant ++ ",") 1
  exact .bind (c.block _ _ hvariants) fun _ _ _ => c.endBlock

theorem uniform (config : Config) : (backend config).Uniform where
  preamble _ := .pure trivial
  closing _ := .pure trivial
  aliasOf c _ target hd := inStep_emitAlias c hd target
  struct c _ members hd := inStep_emitStruct c hd members
  enum c _ variants hd := inStep_emitEnum c hd variants
  function c d _ _ _ := .throw (c.fault (.functionsUnsupported "rust" d.name))

end Rust

namespace C

variable {I : Session String Unit → Session String Unit → Prop}

theorem inStep_emitPreamble (c : Coupling (backend config) r i I E known admitted) :
    InStep I E (fun _ _ => True) (emitPreamble config i) (emitPreamble config (i.rename r)) := by
  refine .bind (c.line _ 0) fun _ _ _ => .bind (c.line _ 0) fun _ _ _ => ?_
  refine .bind (c.line _ 0) fun _ _ _ => .bind c.endBlock fun _ _ _ => ?_
  refine .bind (R := fun _ _ => True) ?_ fun _ _ _ => c.endBlock
  exact .bind (c.line _ 0) fun _ _ _ => .bind (c.line _ 0) fun _ _ _ =>
    .bind (c.line _ 0) fun _ _ _ => .pure trivial

theorem inStep_emitClosing (c : Coupling (backend config) r i I E known admitted) :
    InStep I E (fun _ _ => True) (emitClosing i) (emitClosing (i.rename r)) :=
  .bind c.endBlock fun _ _ _ => c.line _ 0

theorem inStep_emitAlias (c : Coupling (backend config) r i I E known admitted)
    (hd : admitted d) (target : TypeRef) :
    InStep I E (fun _ _ => known target)
      (emitAlias i d target) (emitAlias (i.rename r) (d.rename r) (target.rename r)) := by
  refine .bind (c.resolve target) ?_
  rintro _ targetName ⟨rfl, htarget⟩
  refine .bind (c.define d _ hd) fun _ _ _ => ?_
  refine .bind (c.line _ 0) fun _ _ _ => ?_
  exact c.endBlock.mono fun _ _ _ => htarget

theorem inStep_emitMember (c : Coupling (backend config) r i I E known admitted)
    (member : Field) : InStep I E (fun _ _ => known member.type)
      (emitMember i member) (emitMember (i.rename r) (member.rename r)) := by
  refine .bind (c.resolve member.type) ?_
  rintro _ type ⟨rfl, htype⟩
  exact (c.line _ 1).mono fun _ _ _ => htype

theorem inStep_emitStruct (c : Coupling (backend config) r i I E known admitted)
    (hd : admitted d) (members : List Field) :
    InStep I E (fun _ _ => ∀ member ∈ members, known member.type)
      (emitStruct config i d members)
      (emitStruct config (i.rename r) (d.rename r) (members.map (Field.rename r))) := by
  refine .bind (c.define d _ hd) fun _ _ _ => ?_
  refine .bind (c.block _ _ (.forM members fun member _ => inStep_emitMember c member)) ?_
  intro _ _ hmembers
  refine .bind (c.layoutOf d.id) ?_
  rintro _ layout rfl
  refine .bind (c.line _ 0) fun _ _ _ => .bind (c.line _ 0) fun _ _ _ => ?_
  rw [List.zip_map_left]
  refine .bind (.forM (P := fun _ => True) _ fun (member, offset) _ => c.line _ 0) fun _ _ _ => ?_
  exact c.endBlock.mono fun _ _ _ => hmembers

theorem inStep_emitEnum (c : Coupling (backend config) r i I E known admitted)
    (hd : admitted d) (variants : List String) :
    InStep I E (fun _ _ => True) (emitEnum config i d variants)
      (emitEnum config (i.rename r) (d.rename r) variants) := by
  refine .bind (c.define d _ hd) fun _ _ _ => ?_
  refine .bind (c.resolve (.atom config.discriminant.val)) ?_
  rintro _ reprName ⟨rfl, -⟩
  refine .bind (c.block _ _ (.forM_same _ fun (variant, value) _ => c.line _ 1)) fun _ _ _ => ?_
  exact .bind (c.line _ 0) fun _ _ _ => c.endBlock

theorem inStep_params (c : Coupling (backend config) r i I E known admitted)
    (args : List Field) : InStep I E (fun params params' => params' = params)
      (args.mapM fun arg => do
        let type ← resolve i arg.type
        pure (type ++ " " ++ Rules.c.fieldName arg.name))
      ((args.map (Field.rename r)).mapM fun arg => do
        let type ← resolve (i.rename r) arg.type
        pure (type ++ " " ++ Rules.c.fieldName arg.name)) := by
  refine (InStep.mapM (P := fun _ => True) args fun arg _ => ?_).mono fun _ _ => And.left
  refine .bind (c.resolve arg.type) ?_
  rintro _ type ⟨rfl, -⟩
  exact .pure ⟨rfl, trivial⟩

/-- Functions are not defined, so any declaration will do. -/
theorem inStep_emitFunction (c : Coupling (backend config) r i I E known admitted)
    (args : List Field) (result : Option TypeRef) :
    InStep I E (fun _ _ => True) (emitFunction i d args result)
      (emitFunction (i.rename r) (d.rename r) (args.map (Field.rename r))
        (result.map (TypeRef.rename r))) := by
  cases result
  case' none => refine .bind (R := fun name name' => name' = name) (.pure rfl) ?_
  case' some type => refine .bind ((c.resolve type).mono fun _ _ => And.left) ?_
  all_goals
    rintro _ resultName rfl
    refine .bind (inStep_params c args) ?_
    rintro _ params rfl
    exact .bind (c.line _ 0) fun _ _ _ => c.endBlock

theorem uniform (config : Config) : (backend config).Uniform where
  preamble c := inStep_emitPreamble c
  closing c := inStep_emitClosing c
  aliasOf c _ target hd := inStep_emitAlias c hd target
  struct c _ members hd := inStep_emitStruct c hd members
  enum c _ variants hd := inStep_emitEnum c hd variants
  function c _ args result _ := inStep_emitFunction c args result

end C

namespace Llvm

open Ir

variable {I : Session IrType Scope → Session IrType Scope → Prop}

/-! ## Names in IR -/

theorem outcome_setBody (name : String) (elements : List IrType) (s : Session IrType Scope) :
    outcome (setBody name elements) s =
      if (s.own.bodies.lookup name).isSome then (.error (.bodySetTwice name), s)
      else (.ok (), s.hold { s.own with bodies := (name, elements) :: s.own.bodies }) :=
  outcome_guarded ..

theorem outcome_useGlobal (name : String) (s : Session IrType Scope) :
    outcome (useGlobal name) s =
      if name ∈ s.own.globals then (.error (.nameTaken name), s)
      else (.ok (), s.hold { s.own with globals := name :: s.own.globals }) :=
  outcome_guarded ..

theorem inStep_setBody (c : Coupling (backend config) r i I E known admitted) (name : String)
    (elements : List IrType) :
    InStep I E (fun _ _ => True) (setBody name elements) (setBody name elements) := by
  intro s s' hs
  rw [outcome_setBody, outcome_setBody, c.own s s' hs]
  split
  · exact .error (c.fault _) hs
  · exact .ok trivial (c.hold s s' _ hs)

theorem inStep_useGlobal (c : Coupling (backend config) r i I E known admitted)
    (name : String) : InStep I E (fun _ _ => True) (useGlobal name) (useGlobal name) := by
  intro s s' hs
  rw [outcome_useGlobal, outcome_useGlobal, c.own s s' hs]
  split
  · exact .error (c.fault _) hs
  · exact .ok trivial (c.hold s s' _ hs)

theorem inStep_structType (c : Coupling (backend config) r i I E known admitted)
    (name : String) :
    InStep I E (fun type type' => type' = type) (structType name) (structType name) := by
  unfold structType
  split
  · exact .throw (c.fault _)
  · exact .pure rfl

/-! ## Declarations -/

theorem inStep_emitPreamble (c : Coupling (backend config) r i I E known admitted) :
    InStep I E (fun _ _ => True) (emitPreamble config i) (emitPreamble config (i.rename r)) := by
  refine .bind (c.line _ 0) fun _ _ _ => .bind (c.line _ 0) fun _ _ _ => ?_
  exact .bind (c.line _ 0) fun _ _ _ => c.endBlock

theorem inStep_emitAlias (c : Coupling (backend config) r i I E known admitted)
    (hd : admitted d) (target : TypeRef) :
    InStep I E (fun _ _ => known target)
      (emitAlias i d target) (emitAlias (i.rename r) (d.rename r) (target.rename r)) := by
  refine .bind (c.resolve target) ?_
  rintro _ type ⟨rfl, htarget⟩
  refine .bind (c.define d type hd) fun _ _ _ => ?_
  refine .bind (c.line _ 0) fun _ _ _ => ?_
  exact c.endBlock.mono fun _ _ _ => htarget

theorem inStep_emitStruct (c : Coupling (backend config) r i I E known admitted)
    (hd : admitted d) (members : List Field) :
    InStep I E (fun _ _ => ∀ member ∈ members, known member.type)
      (emitStruct config i d members)
      (emitStruct config (i.rename r) (d.rename r) (members.map (Field.rename r))) := by
  refine .bind (inStep_structType c _) ?_
  rintro _ type rfl
  refine .bind (c.define d type hd) fun _ _ _ => ?_
  refine .bind (.mapM members fun member _ => c.resolve member.type) ?_
  rintro _ elements ⟨rfl, hmembers⟩
  refine .bind (inStep_setBody c _ elements) fun _ _ _ => .bind (c.line _ 0) fun _ _ _ => ?_
  refine .bind (c.layoutOf d.id) ?_
  rintro _ layout rfl
  refine .bind (c.line _ 0) fun _ _ _ => ?_
  exact c.endBlock.mono fun _ _ _ => hmembers

theorem inStep_emitEnum (c : Coupling (backend config) r i I E known admitted)
    (hd : admitted d) (variants : List String) :
    InStep I E (fun _ _ => True) (emitEnum config i d variants)
      (emitEnum config (i.rename r) (d.rename r) variants) := by
  refine .bind (c.resolve (.atom config.discriminant.val)) ?_
  rintro _ type ⟨rfl, -⟩
  refine .bind (c.define d type hd) fun _ _ _ => .bind (c.line _ 0) fun _ _ _ => ?_
  refine .bind (.forM_same _ fun (variant, value) _ => ?_) fun _ _ _ => c.endBlock
  exact .bind (inStep_useGlobal c _) fun _ _ _ => c.line _ 0

/-- Functions are not defined, so any declaration will do. -/
theorem inStep_emitFunction (c : Coupling (backend config) r i I E known admitted)
    (args : List Field) (result : Option TypeRef) :
    InStep I E (fun _ _ => True) (emitFunction i d args result)
      (emitFunction (i.rename r) (d.rename r) (args.map (Field.rename r))
        (result.map (TypeRef.rename r))) := by
  unfold emitFunction
  rw [List.map_map]
  cases result
  case' none => refine .bind (R := fun type type' => type' = type) (.pure rfl) ?_
  case' some type => refine .bind ((c.resolve type).mono fun _ _ => And.left) ?_
  all_goals
    rintro _ resultType rfl
    refine .bind (.mapM args fun arg _ => c.resolve arg.type) ?_
    rintro _ types ⟨rfl, -⟩
    refine .bind (inStep_useGlobal c _) fun _ _ _ => ?_
    exact .bind (c.line _ 0) fun _ _ _ => c.endBlock

theorem uniform (config : Config) : (backend config).Uniform where
  preamble c := inStep_emitPreamble c
  closing _ := .pure trivial
  aliasOf c _ target hd := inStep_emitAlias c hd target
  struct c _ members hd := inStep_emitStruct c hd members
  enum c _ variants hd := inStep_emitEnum c hd variants
  function c _ args result _ := inStep_emitFunction c args result

end Llvm

end HostDecl
