import HostDecl.Proofs.InStep
import HostDecl.Proofs.Interface.Rename
import HostDecl.Proofs.Session.Outcomes
import HostDecl.Session.History

/-!
# Two sessions of one backend, step by step

A backend works on a session through few steps: it writes lines, defines, resolves, asks for
layouts, looks for widened atoms, and minds what it keeps for itself. A `Coupling` says that these
steps are in step in two sessions that go together, the second with other idents for the same
declarations. A backend that is `Uniform` does nothing but such steps, and passes idents on without
looking at them; so all its operations are in step as well, and with them whole runs
(`Coupling.run`).

What goes together is left open: sessions with different idents, sessions that differ in what their
calculators have found, or a session with itself, in which case a coupling is an invariant.
-/

namespace HostDecl

variable {V S : Type}

/-- Questions about layouts are in step if the calculators that are asked answer alike and can be
kept afterwards. -/
theorem InStep.askSizing {I : Session V S → Session V S → Prop} {E : Fault → Fault → Prop}
    {R : Layout → Layout → Prop} {abi : Abi} {i i' : Interface}
    {query query' : Sizing → Except Fault Layout × Sizing}
    (h : ∀ s s', I s s' → Matched (fun z z' => I (s.keep z) (s'.keep z')) E R
      (query (Emission.sizingOf abi i s)) (query' (Emission.sizingOf abi i' s'))) :
    InStep I E R (Emission.askSizing abi i query) (Emission.askSizing abi i' query') := by
  intro s s' hs
  have hanswers := h s s' hs
  rw [outcome_askSizing, outcome_askSizing]
  generalize query (Emission.sizingOf abi i s) = p, query' (Emission.sizingOf abi i' s') = p'
    at hanswers
  cases hanswers with
  | ok hl hz => exact .ok hl hz
  | error hf hz => exact .error hf hz

/-- Two sessions still go together after a look at references for widening, if they do when both
have told of something. -/
theorem Session.noted_rename {I : Session V S → Session V S → Prop} {s s' : Session V S}
    (r : Ident → Ident) (h : I s s') (hreported : s'.reported = s.reported)
    (hreport : ∀ reported warning location,
      I { s with reported, reporter := s.reporter.warn warning location }
        { s' with reported, reporter := s'.reporter.warn warning location })
    (table : AtomTable) (type : TypeRef) (location : Location) :
    I (s.noted table type location) (s'.noted table (type.rename r) location) := by
  cases type with
  | atom a =>
      simp only [Session.noted, TypeRef.rename, hreported]
      split
      · exact hreport ..
      · exact h
  | decl id => exact h
  | foreign text => exact h

/-- The steps of a backend on an interface are in step with those on the renamed interface. A
reference that has been resolved is `known`, and a declaration that is to be defined is
`admitted`. -/
structure Coupling (b : Backend V S) (r : Ident → Ident) (i : Interface)
    (I : Session V S → Session V S → Prop) (E : Fault → Fault → Prop)
    (known : TypeRef → Prop) (admitted : Decl → Prop) : Prop where
  fault : ∀ f, E f f
  line : ∀ text depth, InStep I E (fun _ _ => True)
    (Emission.line text depth) (Emission.line text depth)
  endBlock : InStep I E (fun _ _ => True) Emission.endBlock Emission.endBlock
  header : ∀ d, admitted d → d.entity.isFunction = false → InStep I E (fun _ _ => True)
    (b.emitHeader i d) (b.emitHeader (i.rename r) (d.rename r))
  define : ∀ d value, admitted d → InStep I E (fun _ _ => True)
    (Emission.define b.valueText d value) (Emission.define b.valueText (d.rename r) value)
  resolve : ∀ type, InStep I E (fun value value' => value' = value ∧ known type)
    (Emission.resolve b.atomType i type)
    (Emission.resolve b.atomType (i.rename r) (type.rename r))
  layoutOf : ∀ id, InStep I E (fun layout layout' => layout' = layout)
    (Emission.layoutOf b.abi i id) (Emission.layoutOf b.abi (i.rename r) (r id))
  checkWidening : ∀ type location, InStep I E (fun _ _ => True)
    (Emission.checkWidening b.host.atoms type location)
    (Emission.checkWidening b.host.atoms (type.rename r) location)
  warn : ∀ w location, InStep I E (fun _ _ => True)
    (Emission.warn w location) (Emission.warn w location)
  own : ∀ s s', I s s' → s'.own = s.own
  hold : ∀ s s' own, I s s' → I (s.hold own) (s'.hold own)

/-- The backend works on a session through its steps alone. -/
structure Backend.Uniform (b : Backend V S) : Prop where
  preamble : ∀ {r i I E known admitted}, Coupling b r i I E known admitted →
    InStep I E (fun _ _ => True) (b.preamble i) (b.preamble (i.rename r))
  closing : ∀ {r i I E known admitted}, Coupling b r i I E known admitted →
    InStep I E (fun _ _ => True) (b.closing i) (b.closing (i.rename r))
  aliasOf : ∀ {r i I E known admitted}, Coupling b r i I E known admitted →
    ∀ d target, admitted d → InStep I E (fun _ _ => known target)
      (b.aliasOf i d target) (b.aliasOf (i.rename r) (d.rename r) (target.rename r))
  struct : ∀ {r i I E known admitted}, Coupling b r i I E known admitted →
    ∀ d members, admitted d → InStep I E (fun _ _ => ∀ member ∈ members, known member.type)
      (b.struct i d members)
      (b.struct (i.rename r) (d.rename r) (members.map (Field.rename r)))
  enum : ∀ {r i I E known admitted}, Coupling b r i I E known admitted →
    ∀ d variants, admitted d → InStep I E (fun _ _ => True)
      (b.enum i d variants) (b.enum (i.rename r) (d.rename r) variants)
  function : ∀ {r i I E known admitted}, Coupling b r i I E known admitted →
    ∀ d args result, admitted d → InStep I E (fun _ _ => True)
      (b.function i d args result)
      (b.function (i.rename r) (d.rename r) (args.map (Field.rename r))
        (result.map (TypeRef.rename r)))

namespace Coupling

variable {b : Backend V S} {r : Ident → Ident} {i : Interface}
  {I : Session V S → Session V S → Prop} {E : Fault → Fault → Prop} {known : TypeRef → Prop}
  {admitted : Decl → Prop} {d : Decl}

/-- Blocks are in step if what stands inside is. -/
theorem block (c : Coupling b r i I E known admitted) (opener closer : String) {P : Prop}
    {inside inside' : Emission V S Unit} (h : InStep I E (fun _ _ => P) inside inside') :
    InStep I E (fun _ _ => P) (Emission.block opener closer inside)
      (Emission.block opener closer inside') := by
  refine .bind (c.line opener 0) fun _ _ _ => ?_
  exact .bind h fun _ _ hP => (c.line closer 0).mono fun _ _ _ => hP

/-! ## Single declarations -/

theorem wrongOperation (c : Coupling b r i I E known admitted) (operation : String)
    {R : Unit → Unit → Prop} : InStep I E R
      (Backend.wrongOperation operation d) (Backend.wrongOperation operation (d.rename r)) := by
  refine .throw ?_
  simpa [Decl.rename] using c.fault (.wrongOperation operation d.entity.kind d.name)

theorem emitAlias (c : Coupling b r i I E known admitted) (hb : b.Uniform) (hd : admitted d) :
    InStep I E (fun _ _ => ∀ type ∈ d.entity.parts, known type)
      (b.emitAlias i d) (b.emitAlias (i.rename r) (d.rename r)) := by
  rcases d with ⟨id, name, entity⟩
  cases entity with
  | aliasOf target =>
      exact (hb.aliasOf c _ target hd).mono fun _ _ => List.forall_mem_singleton.mpr
  | _ => exact c.wrongOperation "gen_alias"

theorem emitStruct (c : Coupling b r i I E known admitted) (hb : b.Uniform) (hd : admitted d) :
    InStep I E (fun _ _ => ∀ type ∈ d.entity.parts, known type)
      (b.emitStruct i d) (b.emitStruct (i.rename r) (d.rename r)) := by
  rcases d with ⟨id, name, entity⟩
  cases entity with
  | struct members =>
      exact (hb.struct c _ members hd).mono fun _ _ => List.forall_mem_map.mpr
  | _ => exact c.wrongOperation "gen_struct"

theorem emitEnum (c : Coupling b r i I E known admitted) (hb : b.Uniform) (hd : admitted d) :
    InStep I E (fun _ _ => ∀ type ∈ d.entity.parts, known type)
      (b.emitEnum i d) (b.emitEnum (i.rename r) (d.rename r)) := by
  rcases d with ⟨id, name, entity⟩
  cases entity with
  | enum variants =>
      cases variants with
      | nil => exact .throw (c.fault _)
      | cons variant variants =>
          exact (hb.enum c _ (variant :: variants) hd).mono fun _ _ _ => by simp [Entity.parts]
  | _ => exact c.wrongOperation "gen_enum"

theorem emitFunction (c : Coupling b r i I E known admitted) (hb : b.Uniform)
    (hd : admitted d) : InStep I E (fun _ _ => ∀ type ∈ d.entity.parts, known type)
      (b.emitFunction i d) (b.emitFunction (i.rename r) (d.rename r)) := by
  unfold Backend.emitFunction
  split
  · rcases d with ⟨id, name, entity⟩
    cases entity with
    | function args result =>
        exact (hb.function c _ args result hd).mono fun _ _ _ => by simp [Entity.parts]
    | _ => exact c.wrongOperation "gen_function"
  · exact .throw (c.fault _)

theorem emitDecl (c : Coupling b r i I E known admitted) (hb : b.Uniform) (hd : admitted d) :
    InStep I E (fun _ _ => ∀ type ∈ d.entity.parts, known type)
      (b.emitDecl i d) (b.emitDecl (i.rename r) (d.rename r)) := by
  have halias := c.emitAlias hb hd
  have hstruct := c.emitStruct hb hd
  have henum := c.emitEnum hb hd
  have hfunction := c.emitFunction hb hd
  rcases d with ⟨id, name, entity⟩
  cases entity with
  | aliasOf target => exact halias
  | struct members => exact hstruct
  | enum variants => exact henum
  | function args result => exact hfunction
  | foreign text => exact c.wrongOperation "gen_declaration"

/-! ## Whole interfaces -/

theorem admitFunctions (c : Coupling b r i I E known admitted) (skipUnsupported : Bool) :
    InStep I E (fun functions functions' => functions' = functions)
      (b.admitFunctions i skipUnsupported) (b.admitFunctions (i.rename r) skipUnsupported) := by
  unfold Backend.admitFunctions
  rw [Interface.functions_rename]
  cases hfunctions : i.functions with
  | nil => exact .pure rfl
  | cons first rest =>
      rw [List.map_cons]
      dsimp only
      split
      · exact .pure rfl
      · split
        · rw [← List.map_cons]
          exact .bind (.forM (P := fun _ => True) _ fun d _ => c.warn _ _) fun _ _ _ => .pure rfl
        · exact .throw (c.fault _)

theorem emitEntry (c : Coupling b r i I E known admitted) (hb : b.Uniform) (hd : admitted d)
    (functions : Bool) :
    InStep I E (fun _ _ => d.entity.isFunction = false → ∀ type ∈ d.entity.parts, known type)
      (b.emitEntry i functions d) (b.emitEntry (i.rename r) functions (d.rename r)) := by
  unfold Backend.emitEntry
  rw [show (d.rename r).entity.isFunction = d.entity.isFunction from d.entity.isFunction_rename]
  have hdecl : InStep I E
      (fun _ _ => d.entity.isFunction = false → ∀ type ∈ d.entity.parts, known type)
      (b.emitDecl i d) (b.emitDecl (i.rename r) (d.rename r)) :=
    (c.emitDecl hb hd).mono fun _ _ h _ => h
  split
  · rename_i hf
    split
    · exact hdecl
    · refine .pure fun h => ?_
      rw [hf] at h
      cases h
  · rename_i hf
    exact .bind (c.header d hd (Bool.not_eq_true _ ▸ hf)) fun _ _ _ => hdecl

/-- A run of the interface is in step with a run of the renamed one, and if it succeeds, all parts
of its types are known. -/
theorem run (c : Coupling b r i I E known admitted) (hb : b.Uniform)
    (hdecls : ∀ d ∈ i.decls, admitted d) (skipUnsupported : Bool) :
    InStep I E (fun _ _ => ∀ d ∈ i.decls, d.entity.isFunction = false →
        ∀ type ∈ d.entity.parts, known type)
      (b.run i skipUnsupported) (b.run (i.rename r) skipUnsupported) := by
  refine .bind (c.admitFunctions skipUnsupported) ?_
  rintro _ functions rfl
  refine .bind (hb.preamble c) fun _ _ _ => ?_
  refine .bind (.forM i.decls fun d hd => c.emitEntry hb (hdecls d hd) functions) ?_
  exact fun _ _ hall => (hb.closing c).mono fun _ _ _ => hall

end Coupling

/-! ## Requests -/

/-- The declarations that a request may define. -/
def Request.decls : Request → List Decl
  | .aliasOf _ d | .struct _ d | .enum _ d | .function _ d | .decl _ d => [d]
  | .run i _ => i.decls
  | _ => []

section

variable {b : Backend V S} {I : Session V S → Session V S → Prop} {E : Fault → Fault → Prop}
  {known : TypeRef → Prop} {admitted : Decl → Prop}

/-- Requests are answered alike if the steps of the backend are in step on every interface, and the
question that is no such step is answered alike. -/
theorem inStep_perform_of (c : ∀ i, Coupling b (fun x => x) i I E known admitted) (hb : b.Uniform)
    (hask : ∀ i type, InStep I E (fun layout layout' => layout' = layout)
      (Emission.askSizing b.abi i fun sizing => sizing.layoutOfRef type)
      (Emission.askSizing b.abi i fun sizing => sizing.layoutOfRef type))
    (hdefined : ∀ s s', I s s' → s'.defined = s.defined) {request : Request}
    (hdecls : ∀ d ∈ request.decls, admitted d) :
    InStep I E (fun answer answer' => answer' = answer) (b.perform request)
      (b.perform request) := by
  -- An operation that only has an effect is done with it.
  have hdone {e : Emission V S Unit} {P : Prop} (h : InStep I E (fun _ _ => P) e e) :
      InStep I E (fun answer answer' => answer' = answer)
        (do e; pure Answer.done) (do e; pure Answer.done) :=
    .bind h fun _ _ _ => .pure rfl
  cases request with
  | preamble i =>
      have h := hb.preamble (c i)
      rw [Interface.rename_id] at h
      exact hdone h
  | closing i =>
      have h := hb.closing (c i)
      rw [Interface.rename_id] at h
      exact hdone h
  | header i d => exact hdone (.bind (c i).endBlock fun _ _ _ => (c i).line _ 0)
  | aliasOf i d =>
      have h := (c i).emitAlias hb (hdecls d (List.mem_singleton_self d))
      rw [Interface.rename_id, Decl.rename_id] at h
      exact hdone h
  | struct i d =>
      have h := (c i).emitStruct hb (hdecls d (List.mem_singleton_self d))
      rw [Interface.rename_id, Decl.rename_id] at h
      exact hdone h
  | enum i d =>
      have h := (c i).emitEnum hb (hdecls d (List.mem_singleton_self d))
      rw [Interface.rename_id, Decl.rename_id] at h
      exact hdone h
  | function i d =>
      have h := (c i).emitFunction hb (hdecls d (List.mem_singleton_self d))
      rw [Interface.rename_id, Decl.rename_id] at h
      exact hdone h
  | decl i d =>
      have h := (c i).emitDecl hb (hdecls d (List.mem_singleton_self d))
      rw [Interface.rename_id, Decl.rename_id] at h
      exact hdone h
  | run i skipUnsupported =>
      have h := (c i).run hb hdecls skipUnsupported
      rw [Interface.rename_id] at h
      exact hdone h
  | resolve i type =>
      have h := (c i).resolve type
      rw [Interface.rename_id, TypeRef.rename_id] at h
      refine .bind h ?_
      rintro _ value ⟨rfl, -⟩
      exact .pure rfl
  | layout i id =>
      have h := (c i).layoutOf id
      rw [Interface.rename_id] at h
      refine .bind h ?_
      rintro _ layout rfl
      exact .pure rfl
  | layoutOfRef i type =>
      refine .bind (hask i type) ?_
      rintro _ layout rfl
      exact .pure rfl
  | checkWidening type location =>
      have h := (c { name := "", decls := [] }).checkWidening type location
      rw [TypeRef.rename_id] at h
      exact hdone h
  | get id => exact fun s s' hs => .ok (by rw [hdefined s s' hs]) hs
  | declaredName id => exact fun s s' hs => .ok (by rw [hdefined s s' hs]) hs
  | finish => exact .pure rfl

end

end HostDecl
