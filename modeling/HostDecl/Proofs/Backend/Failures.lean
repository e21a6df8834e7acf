import HostDecl.Proofs.Backend.C
import HostDecl.Proofs.Backend.Llvm
import HostDecl.Proofs.Backend.Rust
import HostDecl.Proofs.Session.Failures

/-!
# What the backends fail with

All backends take the steps of a declaration one by one: a reference can stand in front of what it
refers to, and the layout of a struct may not exist. In Rust and C all other steps succeed. In IR a
declaration also takes its names, and is refused if it cannot have one (`Llvm.Refused`).
-/

namespace HostDecl

/-! ## Rust -/

section

variable {config : Config} {i : Interface} {d : Decl} {s : Session String Unit}

namespace Rust

theorem failsOnly_defineName {E : Fault → Prop} (h : d.id ∉ s.defined.idents) :
    FailsOnly (defineName d) s E :=
  .bind (failsOnly_define h) fun _ _ _ => .pure

theorem failsOnly_emitAlias {target : TypeRef} (h : d.id ∉ s.defined.idents)
    (htarget : target.DeclaredIn i.decls) :
    FailsOnly (emitAlias i d target) s Fault.Foreseen := by
  refine .bind (failsOnly_resolve htarget) fun _ t ht => ?_
  obtain ⟨-, -, rfl⟩ := yields_resolve.mp ht
  obtain ⟨u, hu, halike⟩ := yields_checkWidening .rust target { declaration := d.name } t
  refine .bind (.of_yields hu) fun _ v hv => ?_
  obtain ⟨-, rfl⟩ := hv.unique hu
  refine .bind (failsOnly_defineName (by rwa [halike.defined])) fun _ _ _ => ?_
  exact failsAs_lastLine _ 0

theorem failsOnly_emitMember {member : Field} (h : member.type.DeclaredIn i.decls) :
    FailsOnly (emitMember i d member) s Fault.Foreseen :=
  .bind (failsAs_checkWidening _ _ _) fun _ _ _ =>
    .bind (failsOnly_resolve h) fun _ _ _ => failsAs_line _ 1

theorem failsOnly_emitStruct {members : List Field} (hi : i.Coherent)
    (hs : s.Trusted (Host.rust.abi config) i) (h : d.id ∉ s.defined.idents)
    (hd : (TypeRef.decl d.id).DeclaredIn i.decls)
    (hmembers : ∀ member ∈ members, member.type.DeclaredIn i.decls) :
    FailsOnly (emitStruct config i d members) s Fault.Foreseen := by
  refine .bind (failsOnly_defineName h) fun _ t ht => ?_
  obtain ⟨-, -, rfl⟩ := yields_defineName.mp ht
  refine .bind (failsOnly_layoutOf hi (hs.register _) hd) fun _ _ _ => ?_
  refine .bind (failsAs_line _ 0) fun _ _ _ => .bind (failsOnly_block fun _ => ?_) fun _ _ _ =>
    failsAs_endBlock
  exact .forM_any fun member hmember _ => failsOnly_emitMember (hmembers member hmember)

theorem failsOnly_emitEnum {variants : List String} (h : d.id ∉ s.defined.idents) :
    FailsOnly (emitEnum config i d variants) s Fault.Foreseen := by
  refine .bind (failsOnly_defineName h) fun _ _ _ => ?_
  refine .bind (failsAs_checkWidening _ _ _) fun _ _ _ => ?_
  refine .bind (failsOnly_resolve trivial) fun _ _ _ => ?_
  refine .bind (failsAs_line _ 0) fun _ _ _ => .bind (failsAs_line _ 0) fun _ _ _ => ?_
  refine .bind (failsOnly_block fun _ => ?_) fun _ _ _ => failsAs_endBlock
  exact .forM_any fun _ _ _ => failsAs_line _ 1

theorem careful (config : Config) : (backend config).Careful :=
  .of_operations failsOnly_emitAlias failsOnly_emitStruct failsOnly_emitEnum nofun

end Rust

/-! ## C -/

namespace C

theorem failsOnly_emitAlias {target : TypeRef} (h : d.id ∉ s.defined.idents)
    (htarget : target.DeclaredIn i.decls) :
    FailsOnly (emitAlias i d target) s Fault.Foreseen := by
  refine .bind (failsOnly_resolve htarget) fun _ t ht => ?_
  obtain ⟨-, -, rfl⟩ := yields_resolve.mp ht
  exact .bind (failsOnly_define h) fun _ _ _ => failsAs_lastLine _ 0

theorem failsOnly_emitMember {member : Field} (h : member.type.DeclaredIn i.decls) :
    FailsOnly (emitMember i member) s Fault.Foreseen :=
  .bind (failsOnly_resolve h) fun _ _ _ => failsAs_line _ 1

/-- The layout comes after the members, which leave the calculator as it is. -/
theorem failsOnly_emitStruct {members : List Field} (hi : i.Coherent)
    (hs : s.Trusted (Host.c.abi config) i) (h : d.id ∉ s.defined.idents)
    (hd : (TypeRef.decl d.id).DeclaredIn i.decls)
    (hmembers : ∀ member ∈ members, member.type.DeclaredIn i.decls) :
    FailsOnly (emitStruct config i d members) s Fault.Foreseen := by
  refine .bind (failsOnly_define h) fun _ t ht => ?_
  obtain ⟨-, rfl⟩ := yields_define.mp ht
  refine .bind (failsOnly_block fun _ => ?_) fun _ t ht => ?_
  · exact .forM_any fun member hmember _ => failsOnly_emitMember (hmembers member hmember)
  obtain ⟨lines, rfl⟩ := print_of_yields_block ht
  refine .bind (failsOnly_layoutOf hi ((hs.register _).print lines) hd) fun layout _ _ => ?_
  refine .bind (failsAs_line _ 0) fun _ _ _ => .bind (failsAs_line _ 0) fun _ _ _ => ?_
  refine .bind (.forM_any fun (member, offset) _ _ => ?_) fun _ _ _ => failsAs_endBlock
  exact failsAs_line _ 0

theorem failsOnly_emitEnum {variants : List String} (h : d.id ∉ s.defined.idents) :
    FailsOnly (emitEnum config i d variants) s Fault.Foreseen := by
  refine .bind (failsOnly_define h) fun _ _ _ => ?_
  refine .bind (failsOnly_resolve trivial) fun _ _ _ => ?_
  refine .bind (failsOnly_block fun _ => ?_) fun _ _ _ => ?_
  · exact .forM_any fun _ _ _ => failsAs_line _ 1
  · exact failsAs_lastLine _ 0

theorem failsOnly_emitFunction {args : List Field} {result : Option TypeRef}
    (hargs : ∀ arg ∈ args, arg.type.DeclaredIn i.decls)
    (hresult : ∀ type, result = some type → type.DeclaredIn i.decls) :
    FailsOnly (emitFunction i d args result) s Fault.Foreseen := by
  have hrest (resultName : String) (t : Session String Unit) : FailsOnly (do
      let params ← args.mapM fun arg => do
        let type ← resolve i arg.type
        pure (type ++ " " ++ Rules.c.fieldName arg.name)
      let paramText := if params.isEmpty then "void" else ", ".intercalate params
      Emission.line (resultName ++ " " ++ Rules.c.functionName d.name ++ "(" ++ paramText ++ ");")
      Emission.endBlock : Emit Unit) t Fault.Foreseen := by
    refine .bind (.mapM_any fun arg harg _ => ?_) fun _ _ _ => ?_
    · exact .bind (failsOnly_resolve (hargs arg harg)) fun _ _ _ => .pure
    · exact failsAs_lastLine _ 0
  cases result with
  | none => exact .bind .pure fun resultName t _ => hrest resultName t
  | some type =>
      exact .bind (failsOnly_resolve (hresult type rfl)) fun resultName t _ => hrest resultName t

theorem careful (config : Config) : (backend config).Careful :=
  .of_operations failsOnly_emitAlias failsOnly_emitStruct failsOnly_emitEnum
    fun _ => failsOnly_emitFunction

end C

end

/-! ## LLVM -/

/-- The fault of a name that is taken. A struct has to have a name before it gets a body. -/
def Symbol.refusal : Symbol → Fault
  | .struct name => if name = "" then .nameTaken name else .bodySetTwice name
  | .global name => .nameTaken name

namespace Llvm

open Ir

variable {config : Config} {i : Interface} {d : Decl} {s : Session IrType Scope}
  {claims held : List Symbol} {E : Fault → Prop}

/-- The faults of a declaration with the given claims, where the given names are held: it comes too
early, it contains itself, or it claims a name that is held or that it claims twice. -/
inductive Refused (claims held : List Symbol) : Fault → Prop
  | notEmitted (name : Option String) (id : Ident) : Refused claims held (.notEmitted name id)
  | containsItself (name : String) (id : Ident) : Refused claims held (.containsItself name id)
  | taken (c : Symbol) (hc : c ∈ claims) (h : c ∈ held ∨ 2 ≤ claims.count c) :
      Refused claims held c.refusal

theorem refused_resolve {type : TypeRef} (h : type.DeclaredIn i.decls) :
    FailsOnly (resolve i type) s (Refused claims held) := by
  refine (failsOnly_resolve_early h).mono ?_
  rintro _ ⟨name, id, rfl⟩
  exact .notEmitted name id

theorem failsOnly_structType {name : String} (h : name = "" → E (.nameTaken name)) :
    FailsOnly (structType name) s E := by
  unfold structType
  split
  · rename_i hname
    exact .throw (h (by simpa using hname))
  · exact .pure

theorem failsOnly_setBody {name : String} {elements : List IrType}
    (h : name ∈ s.own.bodies.map Prod.fst → E (.bodySetTwice name)) :
    FailsOnly (setBody name elements) s E := by
  refine .guarded fun hname => ?_
  obtain ⟨body, hbody, hn⟩ := List.lookup_isSome_iff.mp hname
  exact h (List.mem_map.mpr ⟨body, hbody, (eq_of_beq hn).symm⟩)

theorem failsOnly_useGlobal {name : String} (h : name ∈ s.own.globals → E (.nameTaken name)) :
    FailsOnly (useGlobal name) s E :=
  .guarded h

theorem refused_emitAlias {target : TypeRef} (h : d.id ∉ s.defined.idents)
    (htarget : target.DeclaredIn i.decls) :
    FailsOnly (emitAlias i d target) s (Refused claims held) := by
  refine .bind (refused_resolve htarget) fun _ t ht => ?_
  obtain ⟨-, -, rfl⟩ := yields_resolve.mp ht
  exact .bind (failsOnly_define h) fun _ _ _ => failsAs_lastLine _ 0

theorem refused_emitStruct {members : List Field} (hi : i.Coherent)
    (hs : s.Trusted (Host.llvm.abi config) i) (h : d.id ∉ s.defined.idents)
    (hd : (TypeRef.decl d.id).DeclaredIn i.decls)
    (hmembers : ∀ member ∈ members, member.type.DeclaredIn i.decls) :
    FailsOnly (emitStruct config i d members) s
      (Refused [.struct (Rules.llvm.typeName d.name)] s.own.symbols) := by
  have htaken : Symbol.struct (Rules.llvm.typeName d.name) ∈ s.own.symbols →
      Refused [.struct (Rules.llvm.typeName d.name)] s.own.symbols
        (Symbol.struct (Rules.llvm.typeName d.name)).refusal :=
    fun hheld => .taken _ (List.mem_singleton_self _) (.inl hheld)
  refine .bind (failsOnly_structType fun hname => ?_) fun type t ht => ?_
  · simpa [Symbol.refusal, hname] using htaken (struct_mem_symbols.mpr (.inl hname))
  obtain ⟨hname, -, rfl⟩ := yields_structType.mp ht
  refine .bind (failsOnly_define h) fun _ t ht => ?_
  obtain ⟨-, rfl⟩ := yields_define.mp ht
  refine .bind (.mapM_any fun member hmember _ => refused_resolve (hmembers member hmember))
    fun elements u hu => ?_
  obtain ⟨-, -, rfl⟩ := (yields_mapM_read (fun member type v => yields_resolve) members).mp hu
  refine .bind (failsOnly_setBody fun hbody => ?_) fun _ v hv => ?_
  · simpa [Symbol.refusal, hname] using htaken (struct_mem_symbols.mpr (.inr hbody))
  obtain ⟨-, rfl⟩ := yields_setBody.mp hv
  refine .bind (failsAs_line _ 0) fun _ w hw => ?_
  obtain rfl := yields_line.mp hw
  refine .bind ((failsOnly_layoutOf_cycle hi (((hs.register _).hold _).print _) hd).mono ?_)
    fun _ _ _ => failsAs_lastLine _ 0
  rintro _ ⟨name, c, rfl⟩
  exact .containsItself name c

/-- A variant finds the names taken that were taken before the enum, and those of the variants in
front of it. -/
theorem refused_emitEnum {variants : List String} (h : d.id ∉ s.defined.idents) :
    FailsOnly (emitEnum config i d variants) s
      (Refused (variants.map fun variant => .global (variantGlobal d variant)) s.own.symbols) := by
  refine .bind (refused_resolve trivial) fun type t ht => ?_
  obtain ⟨-, -, rfl⟩ := yields_resolve.mp ht
  refine .bind (failsOnly_define h) fun _ u hu => ?_
  obtain ⟨-, rfl⟩ := yields_define.mp hu
  refine .bind (failsAs_line _ 0) fun _ u hu => ?_
  obtain rfl := yields_line.mp hu
  refine .bind (.forM (P := fun done u =>
    u.own = t.own.withGlobals (done.map fun v => variantGlobal d v.1)) ?_ ?_ rfl)
      fun _ _ _ => failsAs_endBlock
  · intro done v todo u hsplit hown
    refine .bind (failsOnly_useGlobal fun hname => ?_) fun _ _ _ => failsAs_line _ 0
    have hvariants : variants = done.map Prod.fst ++ v.1 :: todo.map Prod.fst := by
      rw [← List.zipIdx_map_fst 0 variants, hsplit]
      simp
    refine .taken (.global (variantGlobal d v.1)) ?_ ?_
    · exact List.mem_map.mpr ⟨v.1, by simp [hvariants], rfl⟩
    · have hheld := global_mem_symbols.mpr hname
      rw [hown, mem_symbols_withGlobals] at hheld
      refine hheld.symm.imp_right fun hdone => ?_
      rw [hvariants, List.map_append, List.count_append, List.map_cons, List.count_cons_self]
      have hfront : 0 < ((done.map Prod.fst).map fun variant =>
          Symbol.global (variantGlobal d variant)).count (.global (variantGlobal d v.1)) := by
        rw [List.count_pos_iff, List.map_map]
        rwa [List.map_map] at hdone
      omega
  · intro done v todo u w _ hown hyields
    obtain ⟨_, r, hr, hline⟩ := yields_bind.mp hyields
    obtain ⟨-, rfl⟩ := yields_useGlobal.mp hr
    obtain rfl := yields_line.mp hline
    rw [Session.print_own, Session.hold_own, hown, withGlobals_withGlobals, List.map_append]
    rfl

theorem refused_emitFunction {args : List Field} {result : Option TypeRef}
    (hargs : ∀ arg ∈ args, arg.type.DeclaredIn i.decls)
    (hresult : ∀ type, result = some type → type.DeclaredIn i.decls) :
    FailsOnly (emitFunction i d args result) s
      (Refused [.global (Rules.llvm.functionName d.name)] s.own.symbols) := by
  have hrest (resultType : IrType) : FailsOnly (do
      let types ← args.mapM fun arg => resolve i arg.type
      let name := Rules.llvm.functionName d.name
      useGlobal name
      let names := argumentNames (args.map fun arg => Rules.llvm.fieldName arg.name)
      Emission.line (functionLine name resultType (types.zip names))
      Emission.endBlock : Emit Unit) s
        (Refused [.global (Rules.llvm.functionName d.name)] s.own.symbols) := by
    refine .bind (.mapM_any fun arg harg _ => refused_resolve (hargs arg harg)) fun types t ht => ?_
    obtain ⟨-, -, rfl⟩ := (yields_mapM_read (fun arg type v => yields_resolve) args).mp ht
    refine .bind (failsOnly_useGlobal fun hname => ?_) fun _ _ _ => failsAs_lastLine _ 0
    exact .taken _ (List.mem_singleton_self _) (.inl (global_mem_symbols.mpr hname))
  cases result with
  | none =>
      refine .bind .pure fun resultType t ht => ?_
      obtain ⟨-, rfl⟩ := yields_pure.mp ht
      exact hrest resultType
  | some type =>
      refine .bind (refused_resolve (hresult type rfl)) fun resultType t ht => ?_
      obtain ⟨-, -, rfl⟩ := yields_resolve.mp ht
      exact hrest resultType

/-- A declaration is refused for its place, for what it is made of, or for one of its names. -/
theorem refused_emitDecl (hi : i.Coherent) (hd : d ∈ i.decls) (hcovers : (backend config).Covers d)
    (hs : s.Trusted (Host.llvm.abi config) i) (h : d.id ∉ s.defined.idents) :
    FailsOnly ((backend config).emitDecl i d) s
      (Refused ((sheet config).claims d) ((sheet config).held s.own)) := by
  dsimp only [sheet]
  refine failsOnly_emitDecl hi hd hcovers ?_ ?_ ?_ ?_
  · intro target he htarget
    exact refused_emitAlias h htarget
  · intro members he hself hmembers
    rw [he]
    exact refused_emitStruct hi hs h hself hmembers
  · intro variants he
    rw [he]
    exact refused_emitEnum h
  · intro args result he _ hargs hresult
    rw [he]
    exact refused_emitFunction hargs hresult

end Llvm

end HostDecl
