import HostDecl.Generate
import HostDecl.Proofs.Backend.C
import HostDecl.Proofs.Backend.Llvm
import HostDecl.Proofs.Backend.Rust

/-!
# Which interfaces a host accepts

A run can fail in the check of functions, in the registry, in the calculator of layouts and in the
scopes of IR, at any declaration. `Interface.Accepted` says in terms of the interface alone when
it does not fail, and `succeeds_iff_accepted` that this is exact.
-/

namespace HostDecl

/-! ## Accepted interfaces -/

/-- The references that a host resolves for a declaration: without functions, no signatures. -/
def Host.refs : Host → Entity → List TypeRef
  | .rust => Entity.parts
  | .c | .llvm => Entity.uses

namespace Interface

/-- The names that structs have in IR. -/
def irStructNames (i : Interface) : List String :=
  i.decls.flatMap fun d => match d.entity with
    | .struct _ => [Rules.llvm.typeName d.name]
    | _ => []

/-- The global names of IR: of the variants of enums and of functions. -/
def irGlobalNames (i : Interface) : List String :=
  i.decls.flatMap fun d => match d.entity with
    | .enum variants => variants.map fun variant =>
        Rules.llvm.typeName d.name ++ "." ++ Rules.llvm.variantName variant
    | .function .. => [Rules.llvm.functionName d.name]
    | _ => []

/-- The idents of the aliases, structs and enums, in order. -/
def typeIdents (i : Interface) : List Ident :=
  (i.decls.filter fun d => d.entity.isType).map Decl.id

/-- Names that can be given once each. -/
def NamesApart (names : List String) : Prop :=
  "" ∉ names ∧ names.Nodup

/-- A host can emit the interface, skipping functions that it has not if it is told to. -/
structure Accepted (i : Interface) (host : Host) (skipUnsupported : Bool) : Prop where
  native : ∀ d ∈ i.decls, d.entity.isType = true ∨ d.entity.isFunction = true
  ordered : i.Ordered host.refs
  inhabited : ∀ d ∈ i.decls, d.entity ≠ .enum []
  functions : host = .rust → i.functions = [] ∨ skipUnsupported = true
  structNames : host = .llvm → NamesApart i.irStructNames
  globalNames : host = .llvm → NamesApart i.irGlobalNames

instance (names : List String) : Decidable (NamesApart names) :=
  inferInstanceAs (Decidable (_ ∧ _))

theorem accepted_iff {i : Interface} {host : Host} {skipUnsupported : Bool} :
    i.Accepted host skipUnsupported ↔
      (∀ d ∈ i.decls, d.entity.isType = true ∨ d.entity.isFunction = true) ∧
      i.Ordered host.refs ∧ (∀ d ∈ i.decls, d.entity ≠ .enum []) ∧
      (host = .rust → i.functions = [] ∨ skipUnsupported = true) ∧
      (host = .llvm → NamesApart i.irStructNames) ∧ (host = .llvm → NamesApart i.irGlobalNames) :=
  ⟨fun h => ⟨h.1, h.2, h.3, h.4, h.5, h.6⟩,
    fun ⟨h₁, h₂, h₃, h₄, h₅, h₆⟩ => ⟨h₁, h₂, h₃, h₄, h₅, h₆⟩⟩

instance (i : Interface) (host : Host) (skipUnsupported : Bool) :
    Decidable (i.Accepted host skipUnsupported) :=
  decidable_of_iff' _ accepted_iff

end Interface

/-! ## Names in IR -/

namespace Symbol

def struct? : Symbol → Option String
  | .struct name => some name
  | .global _ => none

def global? : Symbol → Option String
  | .struct _ => none
  | .global name => some name

theorem struct?_eq_some_iff {c : Symbol} {name : String} :
    struct? c = some name ↔ c = .struct name := by
  cases c <;> simp [struct?]

theorem global?_eq_some_iff {c : Symbol} {name : String} :
    global? c = some name ↔ c = .global name := by
  cases c <;> simp [global?]

theorem mem_filterMap_struct? {symbols : List Symbol} {name : String} :
    name ∈ symbols.filterMap struct? ↔ .struct name ∈ symbols := by
  simp only [List.mem_filterMap, struct?_eq_some_iff, exists_eq_right]

theorem mem_filterMap_global? {symbols : List Symbol} {name : String} :
    name ∈ symbols.filterMap global? ↔ .global name ∈ symbols := by
  simp only [List.mem_filterMap, global?_eq_some_iff, exists_eq_right]

/-- Structs and globals do not get in each other's way. -/
theorem nodup_iff (symbols : List Symbol) :
    symbols.Nodup ↔ (symbols.filterMap struct?).Nodup ∧ (symbols.filterMap global?).Nodup := by
  induction symbols with
  | nil => simp
  | cons c symbols ih =>
      cases c with
      | struct name =>
          have hsome : struct? (.struct name) = some name := rfl
          have hnone : global? (.struct name) = none := rfl
          rw [List.filterMap_cons_some hsome, List.filterMap_cons_none hnone, List.nodup_cons,
            List.nodup_cons, mem_filterMap_struct?, ih, and_assoc]
      | global name =>
          have hnone : struct? (.global name) = none := rfl
          have hsome : global? (.global name) = some name := rfl
          rw [List.filterMap_cons_none hnone, List.filterMap_cons_some hsome, List.nodup_cons,
            List.nodup_cons, mem_filterMap_global?, ih, and_left_comm]

end Symbol

namespace Llvm

variable (config : Config) (i : Interface)

theorem filterMap_struct?_claims :
    (i.decls.flatMap (sheet config).claims).filterMap Symbol.struct? = i.irStructNames := by
  rw [List.filterMap_flatMap, Interface.irStructNames]
  congr 1
  funext d
  dsimp only [sheet]
  cases d.entity with
  | enum variants => simp [Symbol.struct?]
  | _ => rfl

theorem filterMap_global?_claims :
    (i.decls.flatMap (sheet config).claims).filterMap Symbol.global? = i.irGlobalNames := by
  rw [List.filterMap_flatMap, Interface.irGlobalNames]
  congr 1
  funext d
  dsimp only [sheet]
  cases d.entity with
  | enum variants =>
      rw [List.filterMap_map, ← List.filterMap_eq_map]
      rfl
  | _ => rfl

/-- From the start, the empty name is taken as a struct and as a global, and no other is. -/
theorem namesApart_iff :
    ((i.decls.flatMap (sheet config).claims).Nodup ∧
      ∀ c ∈ i.decls.flatMap (sheet config).claims, c ∉ (sheet config).held (backend config).start) ↔
    Interface.NamesApart i.irStructNames ∧ Interface.NamesApart i.irGlobalNames := by
  have hheld : (sheet config).held (backend config).start = [.struct "", .global ""] := rfl
  rw [Symbol.nodup_iff, hheld, Interface.NamesApart, Interface.NamesApart,
    ← filterMap_struct?_claims config, ← filterMap_global?_claims config,
    Symbol.mem_filterMap_struct?, Symbol.mem_filterMap_global?]
  generalize i.decls.flatMap (sheet config).claims = claims
  have hfree : (∀ c ∈ claims, c ∉ [Symbol.struct "", .global ""]) ↔
      .struct "" ∉ claims ∧ .global "" ∉ claims := by
    simp only [List.mem_cons, List.not_mem_nil, or_false, not_or]
    constructor
    · exact fun h => ⟨fun hmem => (h _ hmem).1 rfl, fun hmem => (h _ hmem).2 rfl⟩
    · rintro ⟨hs, hg⟩ c hc
      exact ⟨fun h => hs (h ▸ hc), fun h => hg (h ▸ hc)⟩
  rw [hfree]
  tauto

end Llvm

/-! ## Acceptance is exact -/

/-- Settings for 64-bit Linux. -/
def Config.linux : Config where
  target :=
    { triple := "x86_64-unknown-linux-gnu"
      platform := Platform.ofTriple "x86_64-unknown-linux-gnu"
      arch := .x86_64 }

variable {host : Host} {config : Config} {i : Interface} {skipUnsupported : Bool}
  {reporter : Reporter}

/-- The idents that a run leaves in the registry, or the fault that ended it. -/
def Backend.definedAfter {V S : Type} (b : Backend V S) (i : Interface) (skipUnsupported : Bool)
    (reporter : Reporter) : Except Fault (List Ident) :=
  match (b.run i skipUnsupported).run.run (b.newSession reporter) with
  | (.ok _, s) => .ok s.defined.idents
  | (.error fault, _) => .error fault

/-- The idents that a run of a host leaves in the registry, or the fault that ended it. -/
def Host.definedAfter (host : Host) (config : Config) (i : Interface) (skipUnsupported : Bool)
    (reporter : Reporter) : Except Fault (List Ident) :=
  match host with
  | .rust => (Rust.backend config).definedAfter i skipUnsupported reporter
  | .c => (C.backend config).definedAfter i skipUnsupported reporter
  | .llvm => (Llvm.backend config).definedAfter i skipUnsupported reporter

theorem Backend.definedAfter_eq_ok_iff {V S : Type} {b : Backend V S} {ids : List Ident} :
    b.definedAfter i skipUnsupported reporter = .ok ids ↔
      ∃ t, Yields (b.run i skipUnsupported) (b.newSession reporter) () t ∧
        t.defined.idents = ids := by
  unfold Backend.definedAfter
  simp only [Yields, outcome]
  rcases (b.run i skipUnsupported).run.run (b.newSession reporter) with ⟨fault | u, s⟩
  · simp
  · simp

/-- For any host with a sheet: a text comes out, and the idents of the types are registered,
exactly if functions are admitted and every declaration fits. -/
theorem Sheet.Describes.outcomes {V S : Type} {sh : Sheet V S} {b : Backend V S}
    (hsh : sh.Describes b) (hi : i.Distinct) {P : Prop}
    (hP : (b.host.emitsFunctions = true ∨ i.functions = [] ∨ skipUnsupported = true) ∧
      sh.Emittable b i ↔ P) :
    ((∃ text, (b.generate i skipUnsupported reporter).1 = .ok text) ↔ P) ∧
      ∀ ids, b.definedAfter i skipUnsupported reporter = .ok ids ↔ P ∧ ids = i.typeIdents := by
  have hruns : (∃ t, Yields (b.run i skipUnsupported) (b.newSession reporter) () t) ↔ P :=
    (hsh.run_succeeds_iff hi).trans hP
  constructor
  · rw [← hruns]
    constructor
    · rintro ⟨text, htext⟩
      obtain ⟨t, ht, -⟩ := Backend.generate_eq_ok_iff.mp htext
      exact ⟨t, ht⟩
    · rintro ⟨t, ht⟩
      exact ⟨_, Backend.generate_eq_ok_iff.mpr ⟨t, ht, rfl⟩⟩
  · intro ids
    rw [Backend.definedAfter_eq_ok_iff, ← hruns]
    constructor
    · rintro ⟨t, ht, rfl⟩
      exact ⟨⟨t, ht⟩, (hsh.finished hi ht).idents⟩
    · rintro ⟨⟨t, ht⟩, rfl⟩
      exact ⟨t, ht, (hsh.finished hi ht).idents⟩

/-- Where nothing is claimed, no names have to be kept apart. -/
theorem Sheet.Emittable.of_free {V S : Type} {sh : Sheet V S} {b : Backend V S}
    (hfree : ∀ d, sh.claims d = []) (native : ∀ d ∈ i.decls, ∀ text, d.entity ≠ .foreign text)
    (inhabited : ∀ d ∈ i.decls, d.entity ≠ .enum []) (ordered : i.Ordered b.refs) :
    sh.Emittable b i := by
  have hclaims : i.decls.flatMap sh.claims = [] := List.flatMap_eq_nil_iff.mpr fun d _ => hfree d
  refine ⟨native, inhabited, ordered, ?_, ?_⟩
  · rw [hclaims]
    exact List.nodup_nil
  · rw [hclaims]
    exact List.forall_mem_nil _

theorem emittable_rust_iff :
    (((Rust.backend config).host.emitsFunctions = true ∨ i.functions = [] ∨
        skipUnsupported = true) ∧ (Rust.sheet config).Emittable (Rust.backend config) i) ↔
      i.Accepted .rust skipUnsupported := by
  constructor
  · rintro ⟨hfun, h⟩
    exact ⟨fun d hd => Entity.isType_or_isFunction_iff.mpr (h.native d hd), h.ordered, h.inhabited,
      fun _ => hfun.resolve_left Bool.false_ne_true, nofun, nofun⟩
  · intro h
    have hnative := fun d hd => Entity.isType_or_isFunction_iff.mp (h.native d hd)
    exact ⟨.inr (h.functions rfl), .of_free (fun _ => rfl) hnative h.inhabited h.ordered⟩

theorem emittable_c_iff :
    (((C.backend config).host.emitsFunctions = true ∨ i.functions = [] ∨
        skipUnsupported = true) ∧ (C.sheet config).Emittable (C.backend config) i) ↔
      i.Accepted .c skipUnsupported := by
  constructor
  · rintro ⟨-, h⟩
    exact ⟨fun d hd => Entity.isType_or_isFunction_iff.mpr (h.native d hd), h.ordered, h.inhabited,
      nofun, nofun, nofun⟩
  · intro h
    have hnative := fun d hd => Entity.isType_or_isFunction_iff.mp (h.native d hd)
    exact ⟨.inl rfl, .of_free (fun _ => rfl) hnative h.inhabited h.ordered⟩

theorem emittable_llvm_iff :
    (((Llvm.backend config).host.emitsFunctions = true ∨ i.functions = [] ∨
        skipUnsupported = true) ∧ (Llvm.sheet config).Emittable (Llvm.backend config) i) ↔
      i.Accepted .llvm skipUnsupported := by
  have hnames := Llvm.namesApart_iff config i
  constructor
  · rintro ⟨-, h⟩
    obtain ⟨hstructs, hglobals⟩ := hnames.mp ⟨h.nodup, h.unclaimed⟩
    exact ⟨fun d hd => Entity.isType_or_isFunction_iff.mpr (h.native d hd), h.ordered, h.inhabited,
      nofun, fun _ => hstructs, fun _ => hglobals⟩
  · intro h
    obtain ⟨hnodup, hfree⟩ := hnames.mpr ⟨h.structNames rfl, h.globalNames rfl⟩
    exact ⟨.inl rfl, fun d hd => Entity.isType_or_isFunction_iff.mp (h.native d hd),
      h.inhabited, h.ordered, hnodup, hfree⟩

/-- Of an accepted interface there is a text. -/
theorem generates_of_accepted (host : Host) (config : Config) (i : Interface)
    (skipUnsupported : Bool) (reporter : Reporter) (hi : i.Distinct)
    (h : i.Accepted host skipUnsupported) :
    ∃ text, (host.generate config i skipUnsupported reporter).1 = .ok text := by
  cases host with
  | rust => exact ((Rust.describes config).outcomes hi emittable_rust_iff).1.mpr h
  | c => exact ((C.describes config).outcomes hi emittable_c_iff).1.mpr h
  | llvm => exact ((Llvm.describes config).outcomes hi emittable_llvm_iff).1.mpr h

/-- Of an interface with one ident for each declaration a host makes a text exactly if it accepts
the interface. The registry then holds the types of the interface and nothing else. -/
theorem succeeds_iff_accepted (host : Host) (config : Config) (i : Interface)
    (skipUnsupported : Bool) (reporter : Reporter) (hi : i.Distinct) :
    ((∃ text, (host.generate config i skipUnsupported reporter).1 = .ok text) ↔
      i.Accepted host skipUnsupported) ∧
    ∀ ids, host.definedAfter config i skipUnsupported reporter = .ok ids ↔
      i.Accepted host skipUnsupported ∧ ids = i.typeIdents := by
  cases host with
  | rust => exact (Rust.describes config).outcomes hi emittable_rust_iff
  | c => exact (C.describes config).outcomes hi emittable_c_iff
  | llvm => exact (Llvm.describes config).outcomes hi emittable_llvm_iff

theorem succeeds_iff_accepted_shapes : Interface.shapes.Distinct ∧
    ∃ text, (Host.llvm.generate .linux .shapes false {}).1 = .ok text :=
  ⟨by decide, (succeeds_iff_accepted .llvm .linux .shapes false {} (by decide)).1.mpr
    (by decide +kernel)⟩

end HostDecl
