import HostDecl.Backend.Llvm
import HostDecl.Proofs.Session.Run

/-!
# The sheet of the LLVM backend

What the LLVM backend writes for each kind of declaration, which bodies it gives and which names
it uses, and the proof that it does exactly that (`Llvm.describes`). A struct takes its name as a
type; the variants of an enum and a function take theirs as globals. The empty name is taken from
the start, both ways.
-/

namespace HostDecl

namespace Llvm

open Ir

/-! ## Lines and names -/

/-- The global of a variant. -/
def variantGlobal (d : Decl) (variant : String) : String :=
  Rules.llvm.typeName d.name ++ "." ++ Rules.llvm.variantName variant

/-- The comment that names the type of an alias or an enum. -/
def typeLine (d : Decl) (type : IrType) : Line where
  text := "; " ++ Rules.llvm.typeName d.name ++ " = " ++ type.text

def sizeLine (layout : Layout) : Line where
  text := "; size " ++ toString layout.size ++ ", align " ++ toString layout.align

def structElements (read : TypeRef → IrType) (members : List Field) : List IrType :=
  members.map fun member => read member.type

def structLines (read : TypeRef → IrType) (layout : Layout) (d : Decl) (members : List Field) :
    List Line :=
  [{ text := structLine (Rules.llvm.typeName d.name) (structElements read members) },
    sizeLine layout]

def variantLine (d : Decl) (type : IrType) (variant : String × Nat) : Line where
  text := "@" ++ quotedName (variantGlobal d variant.1) ++ " = constant " ++ type.text ++ " "
    ++ toString variant.2

def enumLines (type : IrType) (d : Decl) (variants : List String) : List Line :=
  typeLine d type :: variants.zipIdx.map (variantLine d type)

def prototypeLine (read : TypeRef → IrType) (d : Decl) (args : List Field)
    (result : Option TypeRef) : Line where
  text := functionLine (Rules.llvm.functionName d.name) ((result.map read).getD .void)
    ((args.map fun arg => read arg.type).zip
      (argumentNames (args.map fun arg => Rules.llvm.fieldName arg.name)))

/-! ## The sheet -/

/-- The scope with the body of one more struct. -/
def Scope.withBody (own : Scope) (name : String) (elements : List IrType) : Scope :=
  { own with bodies := (name, elements) :: own.bodies }

/-- The scope in which some more globals are used, the last one in front. -/
def Scope.withGlobals (own : Scope) (names : List String) : Scope :=
  { own with globals := names.reverse ++ own.globals }

/-- The names that are taken in a scope. -/
def Scope.symbols (own : Scope) : List Symbol :=
  .struct "" :: own.bodies.map (fun body => .struct body.1) ++ own.globals.map .global

/-- What the LLVM backend writes, keeps and takes. -/
def sheet (config : Config) : Sheet IrType Scope where
  value read d := match d.entity with
    | .aliasOf target => read target
    | .struct _ => .struct (Rules.llvm.typeName d.name)
    | _ => read (.atom config.discriminant.val)
  body read layout d := match d.entity with
    | .aliasOf target => [typeLine d (read target)]
    | .struct members => structLines read layout d members
    | .enum variants => enumLines (read (.atom config.discriminant.val)) d variants
    | .function args result => [prototypeLine read d args result]
    | .foreign _ => []
  keep read d own := match d.entity with
    | .struct members => own.withBody (Rules.llvm.typeName d.name) (structElements read members)
    | .enum variants => own.withGlobals (variants.map (variantGlobal d))
    | .function .. => own.withGlobals [Rules.llvm.functionName d.name]
    | _ => own
  claims d := match d.entity with
    | .struct _ => [.struct (Rules.llvm.typeName d.name)]
    | .enum variants => variants.map fun variant => .global (variantGlobal d variant)
    | .function .. => [.global (Rules.llvm.functionName d.name)]
    | _ => []
  held := Scope.symbols
  opening name :=
    [[{ text := "; ModuleID = \"" ++ name ++ "\"" },
      { text := "target triple = \"" ++ config.target.triple ++ "\"" },
      { text := "target datalayout = \"" ++ config.target.arch.dataLayout ++ "\"" }]]
  closing _ := []

theorem withGlobals_withGlobals (own : Scope) (names names' : List String) :
    (own.withGlobals names).withGlobals names' = own.withGlobals (names ++ names') := by
  simp [Scope.withGlobals]

/-- Names that are used one after the other are distinct. -/
theorem unused_cons {own : Scope} {name : String} {names : List String} :
    (name ∉ own.globals ∧ names.Nodup ∧ ∀ n ∈ names, n ∉ (own.withGlobals [name]).globals) ↔
      (name :: names).Nodup ∧ ∀ n ∈ name :: names, n ∉ own.globals := by
  have hmem : ∀ n, n ∈ (own.withGlobals [name]).globals ↔ n = name ∨ n ∈ own.globals :=
    fun n => List.mem_cons
  simp only [hmem, not_or, List.nodup_cons, List.forall_mem_cons]
  constructor
  · rintro ⟨hname, hn, hall⟩
    exact ⟨⟨fun h => (hall name h).1 rfl, hn⟩, hname, fun n h => (hall n h).2⟩
  · rintro ⟨⟨hnot, hn⟩, hname, hall⟩
    exact ⟨hname, hn, fun n h => ⟨fun heq => hnot (heq ▸ h), hall n h⟩⟩

theorem mem_symbols_withBody {own : Scope} {name : String} {elements : List IrType} {c : Symbol} :
    c ∈ (own.withBody name elements).symbols ↔ c = .struct name ∨ c ∈ own.symbols := by
  simp only [Scope.symbols, Scope.withBody, List.map_cons, List.cons_append, List.mem_cons]
  tauto

theorem mem_symbols_withGlobals {own : Scope} {names : List String} {c : Symbol} :
    c ∈ (own.withGlobals names).symbols ↔ c ∈ names.map Symbol.global ∨ c ∈ own.symbols := by
  simp only [Scope.symbols, Scope.withGlobals, List.map_append, List.mem_append, List.mem_cons,
    List.map_reverse, List.mem_reverse, List.cons_append]
  tauto

theorem struct_mem_symbols {own : Scope} {name : String} :
    Symbol.struct name ∈ own.symbols ↔ name = "" ∨ name ∈ own.bodies.map Prod.fst := by
  simp [Scope.symbols]

theorem global_mem_symbols {own : Scope} {name : String} :
    Symbol.global name ∈ own.symbols ↔ name ∈ own.globals := by
  simp [Scope.symbols]

/-! ## Emissions -/

section

variable {config : Config} {i : Interface} {d : Decl} {s t : Session IrType Scope}

theorem yields_resolve {type : TypeRef} {value : IrType} :
    Yields (resolve i type) s value t ↔
      s.defined.Knows type ∧ value = s.defined.reading IrType.ofAtom type ∧ t = s :=
  HostDecl.yields_resolve

theorem yields_define {type : IrType} {u : Unit} :
    Yields (define d type) s u t ↔
      d.id ∉ s.defined.idents ∧ t = s.register (s.defined.extend d.id type d.name) :=
  HostDecl.yields_define

theorem yields_structType {name : String} {type : IrType} :
    Yields (structType name) s type t ↔ name ≠ "" ∧ type = .struct name ∧ t = s := by
  unfold structType
  by_cases h : name = ""
  · rw [if_pos (by simpa using h), yields_throw]
    simp [h]
  · rw [if_neg (by simpa using h), yields_pure]
    simp [h]

theorem yields_setBody {name : String} {elements : List IrType} {u : Unit} :
    Yields (setBody name elements) s u t ↔
      name ∉ s.own.bodies.map Prod.fst ∧ t = s.hold (s.own.withBody name elements) := by
  have hlookup : (s.own.bodies.lookup name).isSome = true ↔ name ∈ s.own.bodies.map Prod.fst := by
    simp only [List.lookup_isSome_iff, List.mem_map, beq_iff_eq]
    exact ⟨fun ⟨e, he, hn⟩ => ⟨e, he, hn.symm⟩, fun ⟨e, he, hn⟩ => ⟨e, he, hn.symm⟩⟩
  rw [← hlookup]
  exact yields_guarded

theorem yields_useGlobal {name : String} {u : Unit} :
    Yields (useGlobal name) s u t ↔
      name ∉ s.own.globals ∧ t = s.hold (s.own.withGlobals [name]) :=
  yields_guarded

theorem yields_emitAlias {target : TypeRef} :
    Yields (emitAlias i d target) s () t ↔
      s.defined.Knows target ∧ d.id ∉ s.defined.idents ∧
        t = ((s.register (s.defined.extend d.id (s.defined.reading IrType.ofAtom target)
          d.name)).print [typeLine d (s.defined.reading IrType.ofAtom target)]).rest := by
  simp only [emitAlias, yields_bind, yields_resolve, yields_define, yields_line,
    yields_endBlock, and_assoc, exists_and_left, exists_eq_left, exists_const]
  rfl

theorem yields_emitStruct {members : List Field} {r : Registry IrType}
    (h : s.Trusted (Host.llvm.abi config) i)
    (hr : r = s.defined.extend d.id (.struct (Rules.llvm.typeName d.name)) d.name) :
    Yields (emitStruct config i d members) s () t ↔
      (Rules.llvm.typeName d.name ≠ "" ∧ d.id ∉ s.defined.idents ∧
        (∀ member ∈ members, r.Knows member.type) ∧
        Rules.llvm.typeName d.name ∉ s.own.bodies.map Prod.fst) ∧
      ∃ layout, i.LaidOut (Host.llvm.abi config) (.decl d.id) layout ∧
        t = ((((s.register r).hold (s.own.withBody (Rules.llvm.typeName d.name)
          (structElements (r.reading IrType.ofAtom) members))).measured (Host.llvm.abi config) i
            d.id).print (structLines (r.reading IrType.ofAtom) layout d members)).rest := by
  have hmembers : ∀ (u v : Session IrType Scope) (types : List IrType), u.defined = r →
      (Yields (members.mapM fun member => resolve i member.type) u types v ↔
        (∀ member ∈ members, r.Knows member.type) ∧
          types = structElements (r.reading IrType.ofAtom) members ∧ v = u) := by
    rintro u v types rfl
    exact yields_mapM_read (fun member type w => yields_resolve) members
  subst hr
  simp only [emitStruct, yields_bind, yields_structType, yields_define, yields_setBody,
    yields_line, yields_endBlock, and_assoc, exists_and_left, exists_eq_left, exists_const]
  constructor
  · rintro ⟨hname, hfresh, types, u, hm, hbody, layout, v, hl, rfl⟩
    obtain ⟨hknown, rfl, rfl⟩ := (hmembers _ _ _ rfl).mp hm
    obtain ⟨hlaid, rfl⟩ := (yields_layoutOf (((h.register _).hold _).print _)).mp hl
    exact ⟨hname, hfresh, hknown, hbody, layout, hlaid, rfl⟩
  · rintro ⟨hname, hfresh, hknown, hbody, layout, hlaid, rfl⟩
    exact ⟨hname, hfresh, _, _, (hmembers _ _ _ rfl).mpr ⟨hknown, rfl, rfl⟩, hbody, layout, _,
      (yields_layoutOf (((h.register _).hold _).print _)).mpr ⟨hlaid, rfl⟩, rfl⟩

/-- The variants of an enum take their names one after the other, so no two take the same. -/
theorem yields_variants {type : IrType} (variants : List (String × Nat)) {names : List String}
    (hnames : names = variants.map fun v => variantGlobal d v.1) {u : Unit} :
    Yields (variants.forM fun (variant, value) =>
        emitVariant type (Rules.llvm.typeName d.name) variant value) s u t ↔
      (names.Nodup ∧ ∀ name ∈ names, name ∉ s.own.globals) ∧
        t = (s.hold (s.own.withGlobals names)).print (variants.map (variantLine d type)) := by
  have hstep : ∀ (v : String × Nat) (s t : Session IrType Scope),
      Yields (emitVariant type (Rules.llvm.typeName d.name) v.1 v.2) s () t ↔
        variantGlobal d v.1 ∉ s.own.globals ∧
          t = (s.hold (s.own.withGlobals [variantGlobal d v.1])).print [variantLine d type v] := by
    intro v s t
    simp only [emitVariant, yields_bind, yields_useGlobal, yields_line, and_assoc,
      exists_and_left, exists_eq_left, exists_const]
    rfl
  subst hnames
  induction variants generalizing s with
  | nil =>
      rw [yields_forM_nil]
      simp [Session.hold, Scope.withGlobals]
  | cons v variants ih =>
      rw [yields_forM_cons]
      constructor
      · rintro ⟨r, hfirst, hrest⟩
        obtain ⟨hname, rfl⟩ := (hstep v s r).mp hfirst
        obtain ⟨⟨hn, hall⟩, rfl⟩ := ih.mp hrest
        refine ⟨unused_cons.mp ⟨hname, hn, hall⟩, ?_⟩
        rw [Session.print_own, Session.hold_own, withGlobals_withGlobals]
        rfl
      · rintro ⟨hall, rfl⟩
        obtain ⟨hname, hn, hall⟩ := unused_cons.mpr hall
        refine ⟨_, (hstep v s _).mpr ⟨hname, rfl⟩, ih.mpr ⟨⟨hn, hall⟩, ?_⟩⟩
        rw [Session.print_own, Session.hold_own, withGlobals_withGlobals]
        rfl

theorem yields_emitEnum {variants : List String} {type : IrType}
    (htype : type = IrType.ofAtom config.discriminant.val) :
    Yields (emitEnum config i d variants) s () t ↔
      (d.id ∉ s.defined.idents ∧ (variants.map (variantGlobal d)).Nodup ∧
        ∀ name ∈ variants.map (variantGlobal d), name ∉ s.own.globals) ∧
      t = (((s.register (s.defined.extend d.id type d.name)).hold
        (s.own.withGlobals (variants.map (variantGlobal d)))).print
          (enumLines type d variants)).rest := by
  have hnames : variants.map (variantGlobal d) =
      variants.zipIdx.map fun v => variantGlobal d v.1 := by
    rw [← List.zipIdx_map_fst 0 variants, List.map_map, List.zipIdx_map_fst]
    rfl
  subst htype
  simp only [emitEnum, yields_bind, yields_resolve, yields_define, yields_line,
    yields_variants _ hnames, yields_endBlock, and_assoc, exists_and_left, exists_eq_left,
    exists_const, Registry.Knows, true_and]
  rfl

theorem yields_emitFunction {args : List Field} {result : Option TypeRef} :
    Yields (emitFunction i d args result) s () t ↔
      ((∀ type ∈ args.map Field.type ++ result.toList, s.defined.Knows type) ∧
        Rules.llvm.functionName d.name ∉ s.own.globals) ∧
      t = ((s.hold (s.own.withGlobals [Rules.llvm.functionName d.name])).print
        [prototypeLine (s.defined.reading IrType.ofAtom) d args result]).rest := by
  have hargs : ∀ (types : List IrType) (u : Session IrType Scope),
      Yields (args.mapM fun arg => resolve i arg.type) s types u ↔
      (∀ arg ∈ args, s.defined.Knows arg.type) ∧
        types = args.map (fun arg => s.defined.reading IrType.ofAtom arg.type) ∧ u = s :=
    fun types u => yields_mapM_read (fun arg type v => yields_resolve) args
  unfold emitFunction
  rw [List.forall_mem_append, List.forall_mem_map]
  cases result with
  | none =>
      simp only [yields_bind, yields_pure, hargs, yields_useGlobal, yields_line, yields_endBlock,
        and_assoc, exists_and_left, exists_eq_left, exists_const, Option.toList_none,
        List.not_mem_nil, false_implies, implies_true, true_and]
      rfl
  | some type =>
      simp only [yields_bind, hargs, yields_resolve, yields_useGlobal, yields_line,
        yields_endBlock, and_assoc, exists_and_left, exists_eq_left, exists_const,
        Option.toList_some, List.forall_mem_singleton, and_left_comm]
      rfl

/-! ## Declarations one by one -/

theorem acts_alias {target : TypeRef} (h : s.Trusted (Host.llvm.abi config) i)
    (he : d.entity = .aliasOf target) : (sheet config).Acts (backend config) i d s := by
  have hemit : (backend config).emitDecl i d = emitAlias i d target := Backend.emitDecl_alias he
  rw [Sheet.acts_iff, hemit]
  constructor
  · intro t ht
    obtain ⟨hknown, hfresh, rfl⟩ := yields_emitAlias.mp ht
    refine ⟨.of_isType (by simp [he, Entity.isType]) (by simp [he]) hfresh
      (by simpa [he, Entity.parts] using hknown) (by simp [he]) (by simp [sheet, he])
      (by simp [sheet, he]), ?_⟩
    exact ⟨by simp [sheet, he]; rfl, by simp [sheet, he, Entity.isType]; rfl, by simp [sheet, he],
      h⟩
  · intro hr
    exact ⟨_, yields_emitAlias.mpr ⟨Entity.forall_target he hr.known,
      hr.fresh (by simp [he, Entity.isType]), rfl⟩⟩

theorem structElements_congr {read read' : TypeRef → IrType} {members : List Field}
    (h : ∀ member ∈ members, read member.type = read' member.type) :
    structElements read members = structElements read' members :=
  List.map_congr_left fun member hmember => h member hmember

theorem acts_struct {members : List Field} (h : s.Trusted (Host.llvm.abi config) i)
    (hd : i.get? d.id = some d) (he : d.entity = .struct members) :
    (sheet config).Acts (backend config) i d s := by
  have hemit : (backend config).emitDecl i d = emitStruct config i d members :=
    Backend.emitDecl_struct he
  have hclaims : (sheet config).claims d = [.struct (Rules.llvm.typeName d.name)] := by
    simp [sheet, he]
  have htaken : Symbol.struct (Rules.llvm.typeName d.name) ∉ s.own.symbols ↔
      Rules.llvm.typeName d.name ≠ "" ∧
        Rules.llvm.typeName d.name ∉ s.own.bodies.map Prod.fst := by
    rw [struct_mem_symbols, not_or]
  rw [Sheet.acts_iff, hemit]
  constructor
  · intro t ht
    obtain ⟨⟨hname, hfresh, hknown, hbody⟩, layout, hlaid, rfl⟩ := (yields_emitStruct h rfl).mp ht
    have hold : ∀ member ∈ members, s.defined.Knows member.type := fun member hmember =>
      (Registry.knows_extend.mp (hknown member hmember)).resolve_right
        (hlaid.member_ne_self hd he hmember)
    have hlayout : i.layoutOf (backend config).abi d.id = layout := hlaid.layoutOf_eq
    constructor
    · refine .of_isType (by simp [he, Entity.isType]) (by simp [he]) hfresh
        (by simpa [he, Entity.parts] using hold) (fun _ _ => ⟨layout, hlaid⟩) ?_ ?_
      · rw [hclaims]
        exact List.nodup_singleton _
      · rw [hclaims]
        exact List.forall_mem_singleton.mpr (htaken.mpr ⟨hname, hbody⟩)
    · rw [structLines, structElements_congr fun member hmember =>
        Registry.reading_extend (hold member hmember) _ _ _]
      refine ⟨?_, by simp [sheet, he, Entity.isType], by simp [sheet, he]; rfl,
        ((h.register _).hold _).measured d.id⟩
      rw [hlayout]
      simp [sheet, he]
      rfl
  · intro hr
    obtain ⟨layout, hlaid⟩ := hr.laidOut members he
    have hfree := hr.unclaimed
    rw [hclaims] at hfree
    obtain ⟨hname, hbody⟩ := htaken.mp (hfree _ (List.mem_singleton_self _))
    refine ⟨_, (yields_emitStruct h rfl).mpr ⟨⟨hname, hr.fresh (by simp [he, Entity.isType]),
      fun member hmember => ?_, hbody⟩, layout, hlaid, rfl⟩⟩
    exact Registry.knows_extend.mpr (.inl (Entity.forall_members he hr.known member hmember))

theorem acts_enum {variants : List String} (h : s.Trusted (Host.llvm.abi config) i)
    (he : d.entity = .enum variants) (hne : variants ≠ []) :
    (sheet config).Acts (backend config) i d s := by
  have hemit : (backend config).emitDecl i d = emitEnum config i d variants :=
    Backend.emitDecl_enum he hne
  have hclaims : (sheet config).claims d =
      (variants.map (variantGlobal d)).map Symbol.global := by
    simp [sheet, he]
  have hinj : Function.Injective Symbol.global := fun _ _ h => Symbol.global.inj h
  rw [Sheet.acts_iff, hemit]
  constructor
  · intro t ht
    obtain ⟨⟨hfresh, hnodup, hfree⟩, rfl⟩ := (yields_emitEnum rfl).mp ht
    constructor
    · refine .of_isType (by simp [he, Entity.isType]) (by simp [he, hne]) hfresh
        (by simp [he, Entity.parts]) (by simp [he]) ?_ ?_
      · rw [hclaims]
        exact hnodup.map hinj
      · rw [hclaims, List.forall_mem_map]
        exact fun name hname hmem => hfree name hname (global_mem_symbols.mp hmem)
    · exact ⟨by simp [sheet, he]; rfl, by simp [sheet, he, Entity.isType]; rfl,
        by simp [sheet, he], h⟩
  · intro hr
    have hnodup := hr.nodup
    have hfree := hr.unclaimed
    rw [hclaims] at hnodup hfree
    refine ⟨_, (yields_emitEnum rfl).mpr ⟨⟨hr.fresh (by simp [he, Entity.isType]),
      hnodup.of_map _, fun name hname hmem => ?_⟩, rfl⟩⟩
    exact hfree _ (List.mem_map.mpr ⟨name, hname, rfl⟩) (global_mem_symbols.mpr hmem)

theorem acts_function {args : List Field} {result : Option TypeRef}
    (h : s.Trusted (Host.llvm.abi config) i) (he : d.entity = .function args result) :
    (sheet config).Acts (backend config) i d s := by
  have hemit : (backend config).emitDecl i d = emitFunction i d args result :=
    Backend.emitDecl_function he rfl
  have hclaims : (sheet config).claims d = [.global (Rules.llvm.functionName d.name)] := by
    simp [sheet, he]
  rw [Sheet.acts_iff, hemit]
  constructor
  · intro t ht
    obtain ⟨⟨hknown, hfree⟩, rfl⟩ := yields_emitFunction.mp ht
    constructor
    · refine ⟨.inr ⟨by simp [he, Entity.isFunction], rfl⟩, by simp [he],
        by simp [he, Entity.isType], ?_, by simp [he], ?_, ?_⟩
      · simpa [he, Entity.uses, Entity.parts, Entity.signature] using hknown
      · rw [hclaims]
        exact List.nodup_singleton _
      · rw [hclaims]
        exact List.forall_mem_singleton.mpr fun hmem => hfree (global_mem_symbols.mp hmem)
    · exact ⟨by simp [sheet, he]; rfl, by simp [he, Entity.isType], by simp [sheet, he], h⟩
  · intro hr
    have hfree := hr.unclaimed
    rw [hclaims] at hfree
    refine ⟨_, yields_emitFunction.mpr ⟨⟨?_, fun hmem => ?_⟩, rfl⟩⟩
    · simpa [he, Entity.uses, Entity.parts, Entity.signature] using hr.known
    · exact hfree _ (List.mem_singleton_self _) (global_mem_symbols.mpr hmem)

/-! ## The sheet is right -/

theorem value_congr {read read' : TypeRef → IrType} (h : ReadAlike d.entity.uses read read') :
    (sheet config).value read d = (sheet config).value read' d := by
  dsimp only [sheet]
  cases he : d.entity with
  | aliasOf target => exact Entity.forall_target he h.refs
  | struct members => rfl
  | _ => exact h.atoms _

theorem keep_congr {read read' : TypeRef → IrType} {own : Scope}
    (h : ReadAlike d.entity.uses read read') :
    (sheet config).keep read d own = (sheet config).keep read' d own := by
  dsimp only [sheet]
  cases he : d.entity with
  | struct members =>
      dsimp only
      rw [structElements_congr (Entity.forall_members he h.refs)]
  | _ => rfl

theorem body_congr {read read' : TypeRef → IrType} {layout : Layout}
    (h : ReadAlike d.entity.uses read read') :
    (sheet config).body read layout d = (sheet config).body read' layout d := by
  dsimp only [sheet]
  cases he : d.entity with
  | aliasOf target =>
      dsimp only
      rw [Entity.forall_target he h.refs]
  | struct members =>
      dsimp only
      rw [structLines, structLines, structElements_congr (Entity.forall_members he h.refs)]
  | enum variants =>
      dsimp only
      rw [h.atoms]
  | function args result =>
      have htypes : (args.map fun arg => read arg.type) = args.map fun arg => read' arg.type :=
        List.map_congr_left (Entity.forall_args he h.refs)
      have htype : result.map read = result.map read' :=
        Option.map_congr (Entity.forall_result he h.refs)
      dsimp only [prototypeLine]
      rw [htypes, htype]
  | foreign text => rfl

theorem held_keep {read : TypeRef → IrType} {own : Scope} {c : Symbol} :
    c ∈ (sheet config).held ((sheet config).keep read d own) ↔
      c ∈ (sheet config).claims d ∨ c ∈ (sheet config).held own := by
  dsimp only [sheet]
  cases d.entity with
  | aliasOf target => simp
  | struct members => rw [mem_symbols_withBody, List.mem_singleton]
  | enum variants => rw [mem_symbols_withGlobals, List.map_map]; rfl
  | function args result => exact mem_symbols_withGlobals
  | foreign text => simp

theorem body_inked (read : TypeRef → IrType) (layout : Layout)
    (hcover : (backend config).Covers d) : Inked ((sheet config).body read layout d) := by
  dsimp only [sheet]
  cases he : d.entity with
  | aliasOf target =>
      refine ⟨by simp, List.forall_mem_singleton.mpr ?_⟩
      exact visible_append_left (visible_append_right _ (by decide)) _
  | struct members =>
      refine ⟨by simp [structLines], ?_⟩
      refine List.forall_mem_cons.mpr ⟨?_, List.forall_mem_singleton.mpr ?_⟩
      · exact visible_append_right _ (by decide)
      · exact visible_append_left (visible_append_right _ (by decide)) _
  | enum variants =>
      refine ⟨by simp [enumLines], fun line hline => ?_⟩
      rcases List.mem_cons.mp hline with rfl | hline
      · exact visible_append_left (visible_append_right _ (by decide)) _
      · obtain ⟨variant, -, rfl⟩ := List.mem_map.mp hline
        have hat : visible ("@" ++ quotedName (variantGlobal d variant.1)) = true :=
          visible_append_left (by decide) _
        exact visible_append_left (visible_append_left (visible_append_left
          (visible_append_left hat _) _) _) _
  | function args result =>
      refine ⟨by simp, List.forall_mem_singleton.mpr ?_⟩
      exact visible_append_right _ (by decide)
  | foreign text => simp [Backend.Covers, he, Entity.isType, Entity.isFunction] at hcover

end

theorem yields_emitPreamble {config : Config} {i : Interface} {s t : Session IrType Scope} :
    Yields (emitPreamble config i) s () t ↔
      t = s.printBlocks ((sheet config).opening i.name) := by
  simp only [emitPreamble, yields_bind, yields_line, yields_endBlock, exists_eq_left,
    exists_const, Session.print_print]
  rfl

/-- All declarations are written. -/
theorem filter_emits {config : Config} (decls : List Decl) :
    decls.filter (backend config).emits = decls :=
  List.filter_eq_self.mpr fun _ _ => rfl

theorem describes (config : Config) : (sheet config).Describes (backend config) where
  acts := by
    intro i d s h hd hcover hne
    cases he : d.entity with
    | aliasOf target => exact acts_alias h he
    | struct members => exact acts_struct h hd he
    | enum variants => exact acts_enum h he fun hnil => hne (by rw [he, hnil])
    | function args result => exact acts_function h he
    | foreign text => simp [Backend.Covers, he, Entity.isType, Entity.isFunction] at hcover
  preamble := yields_emitPreamble
  ending _ := yields_pure.trans (by simp [sheet])
  value_congr := value_congr
  body_congr := body_congr
  keep_congr := keep_congr
  held_keep := held_keep
  claims_of_not_emits := by simp [Backend.emits, backend, Host.emitsFunctions]
  body_inked := body_inked
  opening_inked name := by
    simp only [sheet, List.forall_mem_cons]
    exact ⟨⟨by simp, by simp [visible]⟩, by simp⟩
  closing_visible := by simp [sheet]
  comment_visible := by
    show visible ";" = true
    decide

end Llvm

end HostDecl
