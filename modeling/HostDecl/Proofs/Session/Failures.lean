import HostDecl.Proofs.Layout.Cycles
import HostDecl.Proofs.Session.Outcomes
import HostDecl.Proofs.Session.Run

/-!
# What a run of a coherent interface can fail with

In a coherent interface three things can still stand in the way: a declaration stands in front of
one that it uses, a type contains itself, or there are functions and the host has none
(`Fault.Foreseen`). Every step of a session that can fail at all fails with one of these, if the
declaration it is about has not been defined and the calculator is right. A run keeps to both, so
that a backend whose operations fail only so has runs that fail only so
(`Sheet.Describes.failsOnly_run`).
-/

namespace HostDecl

variable {V S : Type}

/-- The faults that a coherent interface can come to. -/
inductive Fault.Foreseen : Fault → Prop
  | notEmitted (name : Option String) (id : Ident) : Foreseen (.notEmitted name id)
  | containsItself (name : String) (id : Ident) : Foreseen (.containsItself name id)
  | functionsUnsupported (backend name : String) : Foreseen (.functionsUnsupported backend name)

/-! ## Steps -/

section

open Emission

variable {i : Interface} {d : Decl} {P : Fault → Session V S → Prop} {E : Fault → Prop}
  {s : Session V S}

theorem failsAs_line (text : String) (depth : Nat) : FailsAs (line text depth) s P :=
  .of_yields (a := ()) (yields_line.mpr rfl)

theorem failsAs_endBlock : FailsAs endBlock s P :=
  .of_yields (a := ()) (yields_endBlock.mpr rfl)

/-- A last line does not fail, nor does the end of the block behind it. -/
theorem failsAs_lastLine (text : String) (depth : Nat) :
    FailsAs (do line text depth; endBlock) s P :=
  .bind (failsAs_line text depth) fun _ _ _ => failsAs_endBlock

theorem failsAs_checkWidening (table : AtomTable) (type : TypeRef) (location : Location) :
    FailsAs (checkWidening table type location) s P :=
  have ⟨_, ht, _⟩ := yields_checkWidening table type location s
  .of_yields ht

/-- A block fails as what is inside of it. -/
theorem failsAs_block {opener closer : String} {inside : Emission V S Unit}
    (h : FailsAs inside (s.print [{ text := opener }]) P) :
    FailsAs (block opener closer inside) s P := by
  refine .bind (failsAs_line _ 0) fun _ t ht => ?_
  obtain rfl := yields_line.mp ht
  exact .bind h fun _ _ _ => failsAs_line _ 0

theorem failsOnly_block {opener closer : String} {inside : Emission V S Unit}
    (h : ∀ t, FailsOnly inside t E) : FailsOnly (block opener closer inside) s E :=
  failsAs_block (h _)

theorem failsOnly_define {valueText : V → String} {value : V} (h : d.id ∉ s.defined.idents) :
    FailsOnly (define valueText d value) s E :=
  .of_yields (a := ()) (yields_define.mpr ⟨h, rfl⟩)

/-- A reference to something declared can only come too early. -/
theorem failsOnly_resolve_early {atomType : Atom → V} {type : TypeRef}
    (h : type.DeclaredIn i.decls) :
    FailsOnly (resolve atomType i type) s fun f => ∃ name id, f = .notEmitted name id := by
  intro f t hf
  rw [outcome_resolve] at hf
  cases type with
  | atom a => cases hf
  | decl id =>
      simp only [Registry.resolve] at hf
      cases hget : s.defined.get? id <;> rw [hget] at hf <;> cases hf
      exact ⟨_, _, rfl⟩
  | foreign text => exact h.elim

theorem failsOnly_resolve {atomType : Atom → V} {type : TypeRef}
    (h : type.DeclaredIn i.decls) : FailsOnly (resolve atomType i type) s Fault.Foreseen := by
  refine (failsOnly_resolve_early h).mono ?_
  rintro _ ⟨name, id, rfl⟩
  exact .notEmitted name id

/-- A layout can only be missing where a type contains itself. -/
theorem failsOnly_layoutOf_cycle {abi : Abi} {id : Ident} (hi : i.Coherent) (hs : s.Trusted abi i)
    (hid : (TypeRef.decl id).DeclaredIn i.decls) :
    FailsOnly (layoutOf abi i id) s fun f => ∃ name c, f = .containsItself name c := by
  obtain ⟨hz, -, hsound⟩ := hs.sizingOf
  intro f t hf
  rw [layoutOf, outcome_askSizing] at hf
  exact (Sizing.layoutOf_error hi hsound hz hid).1 f (congrArg Prod.fst hf)

theorem failsOnly_layoutOf {abi : Abi} {id : Ident} (hi : i.Coherent) (hs : s.Trusted abi i)
    (hid : (TypeRef.decl id).DeclaredIn i.decls) :
    FailsOnly (layoutOf abi i id) s Fault.Foreseen := by
  refine (failsOnly_layoutOf_cycle hi hs hid).mono ?_
  rintro _ ⟨name, c, rfl⟩
  exact .containsItself name c

end

/-! ## Runs -/

/-- Where an interface is coherent, emitting one of its declarations fails only as is foreseen. The
declaration has not been defined, and the calculator of the session is right. -/
def Backend.Careful (b : Backend V S) : Prop :=
  ∀ i d s, i.Coherent → d ∈ i.decls → b.Covers d → s.Trusted b.abi i →
    d.id ∉ s.defined.idents → FailsOnly (b.emitDecl i d) s Fault.Foreseen

section

variable {sh : Sheet V S} {b : Backend V S} {i : Interface} {skipUnsupported : Bool}

/-- A declaration of a coherent interface fails as the operation for its kind, which is given what
is declared of it. -/
theorem failsOnly_emitDecl {E : Fault → Prop} {d : Decl} {s : Session V S} (hi : i.Coherent)
    (hd : d ∈ i.decls) (hcovers : b.Covers d)
    (aliasOf : ∀ target, d.entity = .aliasOf target → target.DeclaredIn i.decls →
      FailsOnly (b.aliasOf i d target) s E)
    (struct : ∀ members, d.entity = .struct members → (TypeRef.decl d.id).DeclaredIn i.decls →
      (∀ member ∈ members, member.type.DeclaredIn i.decls) →
      FailsOnly (b.struct i d members) s E)
    (enum : ∀ variants, d.entity = .enum variants → FailsOnly (b.enum i d variants) s E)
    (function : ∀ args result, d.entity = .function args result →
      b.host.emitsFunctions = true → (∀ arg ∈ args, arg.type.DeclaredIn i.decls) →
      (∀ type, result = some type → type.DeclaredIn i.decls) →
      FailsOnly (b.function i d args result) s E) : FailsOnly (b.emitDecl i d) s E := by
  have huses := hi.declared d hd
  cases he : d.entity with
  | aliasOf target =>
      rw [Backend.emitDecl_alias he]
      exact aliasOf target he (Entity.forall_target he huses)
  | struct members =>
      rw [Backend.emitDecl_struct he]
      have hself : (TypeRef.decl d.id).DeclaredIn i.decls := ⟨d, hd, rfl, by rw [he]; rfl⟩
      exact struct members he hself (Entity.forall_members he huses)
  | enum variants =>
      rw [Backend.emitDecl_enum he fun hnil => hi.inhabited d hd (hnil ▸ he)]
      exact enum variants he
  | function args result =>
      have hb : b.host.emitsFunctions = true := by
        simpa [Backend.Covers, he, Entity.isType, Entity.isFunction] using hcovers
      rw [Backend.emitDecl_function he hb]
      exact function args result he hb (Entity.forall_args he huses)
        (Entity.forall_result he huses)
  | foreign text => exact (hi.native d hd text he).elim

/-- A backend is careful if its operations are, each with what it is given of a declaration. -/
theorem Backend.Careful.of_operations
    (aliasOf : ∀ {i : Interface} {d s target}, d.id ∉ s.defined.idents →
      target.DeclaredIn i.decls → FailsOnly (b.aliasOf i d target) s Fault.Foreseen)
    (struct : ∀ {i : Interface} {d s members}, i.Coherent → s.Trusted b.abi i →
      d.id ∉ s.defined.idents → (TypeRef.decl d.id).DeclaredIn i.decls →
      (∀ member ∈ members, member.type.DeclaredIn i.decls) →
      FailsOnly (b.struct i d members) s Fault.Foreseen)
    (enum : ∀ {i : Interface} {d s variants}, d.id ∉ s.defined.idents →
      FailsOnly (b.enum i d variants) s Fault.Foreseen)
    (function : b.host.emitsFunctions = true → ∀ {i : Interface} {d s args result},
      (∀ arg ∈ args, arg.type.DeclaredIn i.decls) →
      (∀ type, result = some type → type.DeclaredIn i.decls) →
      FailsOnly (b.function i d args result) s Fault.Foreseen) : b.Careful :=
  fun _ _ _ hi hd hcovers hs hfresh => failsOnly_emitDecl hi hd hcovers
    (fun _ _ => aliasOf hfresh) (fun _ _ => struct hi hs hfresh) (fun _ _ => enum hfresh)
    (fun _ _ _ hb => function hb)

theorem failsOnly_admitFunctions (s : Session V S) :
    FailsOnly (b.admitFunctions i skipUnsupported) s Fault.Foreseen := by
  unfold Backend.admitFunctions
  split
  · exact .pure
  · split
    · exact .pure
    · split
      · refine .bind (.forM_any fun d _ t => ?_) fun _ _ _ => .pure
        exact .of_yields (a := ()) (yields_warn.mpr rfl)
      · exact .throw (.functionsUnsupported _ _)

/-- A host that has functions admits them. -/
theorem failsOnly_admitFunctions_of_emitsFunctions {E : Fault → Prop}
    (hb : b.host.emitsFunctions = true) (s : Session V S) :
    FailsOnly (b.admitFunctions i skipUnsupported) s E := by
  obtain ⟨functions, t, h⟩ := (b.yields_admitFunctions i skipUnsupported s).1.mpr (.inl hb)
  exact .of_yields h

theorem failsOnly_emitPiece {E : Fault → Prop} {d : Decl} {s : Session V S}
    (h : ∀ t, t.defined = s.defined → t.sizing = s.sizing → t.own = s.own →
      FailsOnly (b.emitDecl i d) t E) : FailsOnly (b.emitPiece i d) s E := by
  unfold Backend.emitPiece
  split
  · exact h s rfl rfl rfl
  · have hheader : Yields (b.emitHeader i d) s () (s.rest.print [b.headerLine i d]) :=
      yields_bind.mpr ⟨(), _, yields_endBlock.mpr rfl, yields_line.mpr rfl⟩
    refine .bind (.of_yields hheader) fun _ t ht => ?_
    obtain ⟨-, rfl⟩ := ht.unique hheader
    exact h _ rfl rfl rfl

/-- What a session is like when a declaration comes, after those in front of it: the declaration has
not been defined, the calculator is right, and the names that are held are those of the start and
those that the declarations in front have claimed. -/
structure Sheet.Awaits (sh : Sheet V S) (b : Backend V S) (i : Interface) (done : List Decl)
    (d : Decl) (s : Session V S) : Prop where
  fresh : d.id ∉ s.defined.idents
  trusted : s.Trusted b.abi i
  held : ∀ c, c ∈ sh.held s.own ↔ c ∈ sh.held b.start ∨ c ∈ done.flatMap sh.claims

/-- One turn of a run, after the declarations in front, fails as emitting the declaration does. -/
theorem Sheet.After.failsOnly_entry {E : Fault → Prop} {before s : Session V S}
    {done todo : List Decl} {d : Decl} (h : sh.After b i before done s)
    (hstart : before.own = b.start) (hi : i.Coherent) (hsplit : i.decls = done ++ d :: todo)
    {functions : Bool} (hfun : functions = b.host.emitsFunctions ∨ i.functions = [])
    (hdecl : ∀ t, b.Covers d → sh.Awaits b i done d t → FailsOnly (b.emitDecl i d) t E) :
    FailsOnly (b.emitEntry i functions d) s E := by
  have hmem : d ∈ i.decls := by simp [hsplit]
  rw [Backend.emitEntry_eq hfun hmem]
  split
  · rename_i hd
    have hcovers : b.Covers d := (Backend.covers_iff hd).mpr (hi.native d hmem)
    refine failsOnly_emitPiece fun t hdefined hsizing hown => hdecl t hcovers ⟨?_, ?_, ?_⟩
    · rw [hdefined]
      exact h.fresh hi.distinct hsplit
    · exact h.trusted.of_sizing_eq hsizing
    · rw [hown, ← hstart]
      exact h.held
  · exact .pure

/-- A run of a coherent interface fails as one of its declarations does, unless functions are not
admitted. -/
theorem Sheet.Describes.failsOnly_run_of {E : Fault → Prop} (hsh : sh.Describes b)
    (hi : i.Coherent) (reporter : Reporter)
    (hfunctions : FailsOnly (b.admitFunctions i skipUnsupported) (b.newSession reporter) E)
    (hdecl : ∀ done d todo t, i.decls = done ++ d :: todo → b.Covers d →
      sh.Awaits b i done d t → FailsOnly (b.emitDecl i d) t E) :
    FailsOnly (b.run i skipUnsupported) (b.newSession reporter) E := by
  refine .bind hfunctions fun functions r hr => ?_
  obtain ⟨halike, hfun⟩ :=
    (b.yields_admitFunctions i skipUnsupported (b.newSession reporter)).2 _ _ hr
  obtain ⟨hopened, hstart, -⟩ := hsh.opened (i := i) halike
  refine .bind (.of_yields (hsh.preamble.mpr rfl)) fun _ u hu => ?_
  obtain rfl := hsh.preamble.mp hu
  -- After the declarations in front, the session awaits the next one.
  refine .bind (.forM (P := fun done s => sh.After b i _ done s) ?_ ?_ hopened) fun _ t ht => ?_
  · exact fun done d todo s hsplit h =>
      h.failsOnly_entry hstart hi hsplit hfun fun t => hdecl done d todo t hsplit
  · exact fun done d todo s t hsplit h => (h.entry hsh hi.distinct hsplit hfun).2 t
  · have hafter := (hopened.loop hsh hi.distinct hfun hstart).2 t ht
    exact .of_yields ((hsh.ending (by rw [hafter.page])).mpr rfl)

/-- A run of a coherent interface fails only as is foreseen. -/
theorem Sheet.Describes.failsOnly_run (hsh : sh.Describes b) (hb : b.Careful) (hi : i.Coherent)
    (reporter : Reporter) :
    FailsOnly (b.run i skipUnsupported) (b.newSession reporter) Fault.Foreseen :=
  hsh.failsOnly_run_of hi reporter (failsOnly_admitFunctions _)
    fun _ d _ t hsplit hcovers hawaits =>
      hb i d t hi (by simp [hsplit]) hcovers hawaits.trusted hawaits.fresh

end

end HostDecl
