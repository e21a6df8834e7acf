import HostDecl.Backend.C
import HostDecl.Proofs.Session.Run

/-!
# The sheet of the C backend

What the C backend writes for each kind of declaration, as lines, and the proof that it writes
exactly that (`C.describes`).
-/

namespace HostDecl

namespace C

/-! ## Lines -/

/-- What a struct resolves to: its tag. -/
def structTag (d : Decl) : String :=
  "struct " ++ Rules.c.typeName d.name

def aliasLine (read : TypeRef → String) (d : Decl) (target : TypeRef) : Line where
  text := "typedef " ++ read target ++ " " ++ Rules.c.typeName d.name ++ ";"

def memberLine (read : TypeRef → String) (member : Field) : Line where
  text := read member.type ++ " " ++ Rules.c.fieldName member.name ++ ";"
  depth := 1

/-- The definition of a struct, without the assertions about it. -/
def structLines (read : TypeRef → String) (d : Decl) (members : List Field) : List Line :=
  [{ text := structTag d ++ " \x7b" }] ++ members.map (memberLine read) ++ [{ text := "\x7d;" }]

theorem memberLine_congr {read read' : TypeRef → String} (member : Field)
    (h : read member.type = read' member.type) :
    memberLine read member = memberLine read' member := by
  rw [memberLine, memberLine, h]

def assertLine (what : String) (value : Nat) : Line where
  text := "_Static_assert(" ++ what ++ " == " ++ toString value ++ ", \"bad " ++ what ++ "\");"

def offsetLine (d : Decl) (member : Field × Nat) : Line :=
  assertLine ("offsetof(" ++ structTag d ++ ", " ++ Rules.c.fieldName member.1.name ++ ")")
    member.2

/-- The assertions about a struct with a layout. -/
def assertLines (layout : Layout) (d : Decl) (members : List Field) : List Line :=
  [assertLine ("sizeof(" ++ structTag d ++ ")") layout.size,
    assertLine ("_Alignof(" ++ structTag d ++ ")") layout.align]
  ++ (members.zip layout.offsets).map (offsetLine d)

def variantLine (d : Decl) (variant : String × Nat) : Line where
  text := CaseStyle.shouty.convert d.name ++ "_" ++ Rules.c.variantName variant.1
    ++ " = " ++ toString variant.2 ++ ","
  depth := 1

def enumLines (reprName : String) (d : Decl) (variants : List String) : List Line :=
  let name := Rules.c.typeName d.name
  [{ text := "enum ___" ++ name ++ " \x7b" }] ++ variants.zipIdx.map (variantLine d) ++
    [{ text := "\x7d;" },
      { text := "typedef " ++ reprName ++ " " ++ name ++ "; // enum ___" ++ name }]

/-- A parameter of a prototype. -/
def paramText (read : TypeRef → String) (arg : Field) : String :=
  read arg.type ++ " " ++ Rules.c.fieldName arg.name

def functionLine (read : TypeRef → String) (d : Decl) (args : List Field)
    (result : Option TypeRef) : Line :=
  let params := args.map (paramText read)
  { text := (result.map read).getD "void" ++ " " ++ Rules.c.functionName d.name ++ "("
      ++ (if params.isEmpty then "void" else ", ".intercalate params) ++ ");" }

/-- What the C backend writes. It keeps nothing and takes no names. -/
def sheet (config : Config) : Sheet String Unit where
  value _ d := match d.entity with
    | .struct _ => structTag d
    | _ => Rules.c.typeName d.name
  body read layout d := match d.entity with
    | .aliasOf target => [aliasLine read d target]
    | .struct members => structLines read d members ++ assertLines layout d members
    | .enum variants => enumLines (read (.atom config.discriminant.val)) d variants
    | .function args result => [functionLine read d args result]
    | .foreign _ => []
  keep _ _ own := own
  claims _ := []
  held _ := []
  opening name :=
    let i : Interface := { name, decls := [] }
    [[{ text := "// Generated by idlc from '" ++ name ++ "' for " ++ config.target.triple ++ "." },
        { text := "#ifndef " ++ includeGuard i }, { text := "#define " ++ includeGuard i }],
      ["stdbool.h", "stddef.h", "stdint.h"].map fun header =>
        { text := "#include <" ++ header ++ ">" }]
  closing name := [{ text := "#endif // " ++ includeGuard { name, decls := [] } }]

/-! ## Emissions -/

section

variable {config : Config} {i : Interface} {d : Decl} {s t : Session String Unit}

theorem yields_resolve {type : TypeRef} {name : String} :
    Yields (resolve i type) s name t ↔
      s.defined.Knows type ∧ name = s.defined.reading AtomTable.c.token type ∧ t = s :=
  HostDecl.yields_resolve

theorem yields_emitAlias {target : TypeRef} :
    Yields (emitAlias i d target) s () t ↔
      s.defined.Knows target ∧ d.id ∉ s.defined.idents ∧
        t = ((s.register (s.defined.extend d.id (Rules.c.typeName d.name) d.name)).print
          [aliasLine (s.defined.reading AtomTable.c.token) d target]).rest := by
  simp only [emitAlias, yields_bind, yields_resolve, yields_define, yields_line,
    yields_endBlock, and_assoc, exists_and_left, exists_eq_left, exists_const]
  rfl

theorem yields_emitMember {r : Registry String} (member : Field) (hs : s.defined = r) :
    Yields (emitMember i member) s () t ↔
      r.Knows member.type ∧ t = s.print [memberLine (r.reading AtomTable.c.token) member] := by
  simp only [emitMember, yields_bind, yields_resolve, yields_line, and_assoc,
    exists_and_left, exists_eq_left, hs]
  rfl

/-- A block of members does nothing but write. -/
theorem print_of_yields_block {members : List Field} {opener closer : String}
    (h : Yields (Emission.block opener closer (members.forM (emitMember i))) s () t) :
    ∃ lines, t = s.print lines := by
  simp only [Emission.block, yields_bind, yields_line] at h
  obtain ⟨_, _, rfl, _, u, hu, rfl⟩ := h
  obtain ⟨-, rfl⟩ :=
    (yields_forM_print (fun member _ _ hv => yields_emitMember member hv) members rfl).mp hu
  exact ⟨_, by rw [Session.print_print, Session.print_print]⟩

theorem yields_staticAssert {what : String} {value : Nat} {u : Unit} :
    Yields (staticAssert what value) s u t ↔ t = s.print [assertLine what value] :=
  yields_line

theorem yields_offsets (ms : List (Field × Nat)) {u : Unit} :
    Yields (ms.forM fun (member, offset) =>
      staticAssert ("offsetof(" ++ structTag d ++ ", " ++ Rules.c.fieldName member.name ++ ")")
        offset) s u t ↔ t = s.print (ms.map (offsetLine d)) :=
  yields_forM_lines (fun _ _ _ => yields_staticAssert) ms

theorem yields_emitStruct {members : List Field} {r : Registry String}
    (h : s.Trusted (Host.c.abi config) i)
    (hr : r = s.defined.extend d.id (structTag d) d.name) :
    Yields (emitStruct config i d members) s () t ↔
      d.id ∉ s.defined.idents ∧ (∀ member ∈ members, r.Knows member.type) ∧
        ∃ layout, i.LaidOut (Host.c.abi config) (.decl d.id) layout ∧
          t = ((((s.register r).print
            (structLines (r.reading AtomTable.c.token) d members)).measured
            (Host.c.abi config) i d.id).print (assertLines layout d members)).rest := by
  have hmembers : ∀ u u' : Session String Unit, u.defined = r →
      (Yields (members.forM (emitMember i)) u () u' ↔ (∀ member ∈ members, r.Knows member.type) ∧
        u' = u.print (members.map (memberLine (r.reading AtomTable.c.token)))) :=
    fun u u' hu => yields_forM_print (fun member v w hv => yields_emitMember member hv) members hu
  simp only [emitStruct, Emission.block, yields_bind, yields_define, yields_line,
    yields_endBlock, yields_staticAssert, and_assoc, exists_and_left, exists_eq_left, exists_const]
  constructor
  · rintro ⟨hfresh, _, ⟨_, u, hm, rfl⟩, layout, v, hl, _, w, ho, rfl⟩
    obtain ⟨hknown, rfl⟩ := (hmembers _ _ hr.symm).mp hm
    obtain ⟨hlaid, rfl⟩ := (yields_layoutOf ((((h.register _).print _).print _).print _)).mp hl
    obtain rfl := (yields_offsets _).mp ho
    refine ⟨hfresh, hknown, layout, hlaid, ?_⟩
    rw [hr]
    simp only [Session.print_print, structLines, assertLines, structTag, List.cons_append,
      List.nil_append]
  · rintro ⟨hfresh, hknown, layout, hlaid, rfl⟩
    refine ⟨hfresh, _, ⟨(), _, (hmembers _ _ hr.symm).mpr ⟨hknown, rfl⟩, rfl⟩, layout, _,
      (yields_layoutOf ((((h.register _).print _).print _).print _)).mpr ⟨hlaid, rfl⟩, (), _,
      (yields_offsets _).mpr rfl, ?_⟩
    rw [hr]
    simp only [Session.print_print, structLines, assertLines, structTag, List.cons_append,
      List.nil_append]

theorem yields_emitEnum {variants : List String} :
    Yields (emitEnum config i d variants) s () t ↔
      d.id ∉ s.defined.idents ∧
        t = ((s.register (s.defined.extend d.id (Rules.c.typeName d.name) d.name)).print
          (enumLines (AtomTable.c.token config.discriminant.val) d variants)).rest := by
  have hvariants : ∀ u u' : Session String Unit,
      Yields (variants.zipIdx.forM fun variant =>
        Emission.line (CaseStyle.shouty.convert d.name ++ "_" ++ Rules.c.variantName variant.1
          ++ " = " ++ toString variant.2 ++ ",") 1) u () u' ↔
      u' = u.print (variants.zipIdx.map (variantLine d)) :=
    fun u u' => yields_forM_lines (fun _ _ _ => yields_line) _
  simp only [emitEnum, Emission.block, yields_bind, yields_define, yields_resolve,
    yields_line, yields_endBlock, and_assoc, exists_and_left, exists_eq_left, exists_const,
    Registry.Knows, true_and]
  constructor
  · rintro ⟨hfresh, _, ⟨_, u, hv, rfl⟩, rfl⟩
    obtain rfl := (hvariants _ _).mp hv
    refine ⟨hfresh, ?_⟩
    simp only [Session.print_print, enumLines, List.append_assoc, List.cons_append,
      List.nil_append]
    rfl
  · rintro ⟨hfresh, rfl⟩
    refine ⟨hfresh, _, ⟨(), _, (hvariants _ _).mpr rfl, rfl⟩, ?_⟩
    simp only [Session.print_print, enumLines, List.append_assoc, List.cons_append,
      List.nil_append]
    rfl

theorem yields_emitFunction {args : List Field} {result : Option TypeRef} :
    Yields (emitFunction i d args result) s () t ↔
      (∀ type ∈ args.map Field.type ++ result.toList, s.defined.Knows type) ∧
        t = (s.print [functionLine (s.defined.reading AtomTable.c.token) d args result]).rest := by
  have hargs : ∀ (ps : List String) (u : Session String Unit),
      Yields (args.mapM fun arg => do
        let type ← resolve i arg.type
        pure (type ++ " " ++ Rules.c.fieldName arg.name)) s ps u ↔
      (∀ arg ∈ args, s.defined.Knows arg.type) ∧
        ps = args.map (paramText (s.defined.reading AtomTable.c.token)) ∧ u = s := by
    intro ps u
    refine yields_mapM_read (fun arg p v => ?_) args
    simp only [yields_bind, yields_resolve, yields_pure, and_assoc, exists_and_left,
      exists_eq_left, paramText]
  unfold emitFunction
  rw [List.forall_mem_append, List.forall_mem_map]
  cases result with
  | none =>
      simp only [yields_bind, yields_pure, hargs, yields_line, yields_endBlock, and_assoc,
        exists_and_left, exists_eq_left, exists_const, functionLine, Option.toList_none,
        List.not_mem_nil, false_implies, implies_true, true_and, List.isEmpty_map]
      rfl
  | some type =>
      simp only [yields_bind, hargs, yields_resolve, yields_line, yields_endBlock, and_assoc,
        exists_and_left, exists_eq_left, exists_const, functionLine, Option.toList_some,
        List.forall_mem_singleton, and_left_comm]
      rfl

/-! ## Declarations one by one -/

theorem acts_alias {target : TypeRef} (h : s.Trusted (Host.c.abi config) i)
    (he : d.entity = .aliasOf target) : (sheet config).Acts (backend config) i d s := by
  have hemit : (backend config).emitDecl i d = emitAlias i d target := Backend.emitDecl_alias he
  rw [Sheet.acts_iff, hemit]
  constructor
  · intro t ht
    obtain ⟨hknown, hfresh, rfl⟩ := yields_emitAlias.mp ht
    refine ⟨.of_isType (by simp [he, Entity.isType]) (by simp [he]) hfresh
      (by simpa [he, Entity.parts] using hknown) (by simp [he]) (by simp [sheet])
      (by simp [sheet]), ?_⟩
    exact ⟨by simp [sheet, he]; rfl, by simp [sheet, he, Entity.isType], rfl, h⟩
  · intro hr
    exact ⟨_, yields_emitAlias.mpr ⟨Entity.forall_target he hr.known,
      hr.fresh (by simp [he, Entity.isType]), rfl⟩⟩

theorem acts_struct {members : List Field} (h : s.Trusted (Host.c.abi config) i)
    (hd : i.get? d.id = some d) (he : d.entity = .struct members) :
    (sheet config).Acts (backend config) i d s := by
  have hemit : (backend config).emitDecl i d = emitStruct config i d members :=
    Backend.emitDecl_struct he
  rw [Sheet.acts_iff, hemit]
  constructor
  · intro t ht
    obtain ⟨hfresh, hknown, layout, hlaid, rfl⟩ := (yields_emitStruct h rfl).mp ht
    have hold : ∀ member ∈ members, s.defined.Knows member.type := fun member hmember =>
      (Registry.knows_extend.mp (hknown member hmember)).resolve_right
        (hlaid.member_ne_self hd he hmember)
    refine ⟨.of_isType (by simp [he, Entity.isType]) (by simp [he]) hfresh
      (by simpa [he, Entity.parts] using hold) (fun _ _ => ⟨layout, hlaid⟩) (by simp [sheet])
      (by simp [sheet]), ?_⟩
    have hlayout : i.layoutOf (backend config).abi d.id = layout := hlaid.layoutOf_eq
    have hlines : structLines ((s.defined.extend d.id (structTag d) d.name).reading
        AtomTable.c.token) d members =
          structLines (s.defined.reading AtomTable.c.token) d members := by
      rw [structLines, structLines, map_congr_of_read memberLine_congr fun member hmember =>
        Registry.reading_extend (hold member hmember) _ _ _]
    refine ⟨?_, by simp [sheet, he, Entity.isType], rfl, ((h.register _).print _).measured d.id⟩
    rw [hlayout, hlines]
    simp only [Session.rest_page, Session.print_page, Session.measured_page,
      Session.register_page, ← Page.print_append, sheet, he]
    rfl
  · intro hr
    obtain ⟨layout, hlaid⟩ := hr.laidOut members he
    refine ⟨_, (yields_emitStruct h rfl).mpr ⟨hr.fresh (by simp [he, Entity.isType]),
      fun member hmember => ?_, layout, hlaid, rfl⟩⟩
    exact Registry.knows_extend.mpr (.inl (Entity.forall_members he hr.known member hmember))

theorem acts_enum {variants : List String} (h : s.Trusted (Host.c.abi config) i)
    (he : d.entity = .enum variants) (hne : variants ≠ []) :
    (sheet config).Acts (backend config) i d s := by
  have hemit : (backend config).emitDecl i d = emitEnum config i d variants :=
    Backend.emitDecl_enum he hne
  rw [Sheet.acts_iff, hemit]
  constructor
  · intro t ht
    obtain ⟨hfresh, rfl⟩ := yields_emitEnum.mp ht
    refine ⟨.of_isType (by simp [he, Entity.isType]) (by simp [he, hne]) hfresh
      (by simp [he, Entity.parts]) (by simp [he]) (by simp [sheet]) (by simp [sheet]), ?_⟩
    exact ⟨by simp [sheet, he]; rfl, by simp [sheet, he, Entity.isType], rfl, h⟩
  · intro hr
    exact ⟨_, yields_emitEnum.mpr ⟨hr.fresh (by simp [he, Entity.isType]), rfl⟩⟩

theorem acts_function {args : List Field} {result : Option TypeRef}
    (h : s.Trusted (Host.c.abi config) i) (he : d.entity = .function args result) :
    (sheet config).Acts (backend config) i d s := by
  have hemit : (backend config).emitDecl i d = emitFunction i d args result :=
    Backend.emitDecl_function he rfl
  rw [Sheet.acts_iff, hemit]
  constructor
  · intro t ht
    obtain ⟨hknown, rfl⟩ := yields_emitFunction.mp ht
    refine ⟨⟨.inr ⟨by simp [he, Entity.isFunction], rfl⟩, by simp [he],
      by simp [he, Entity.isType], ?_, by simp [he], by simp [sheet], by simp [sheet]⟩, ?_⟩
    · simpa [he, Entity.uses, Entity.parts, Entity.signature] using hknown
    · exact ⟨by simp [sheet, he]; rfl, by simp [he, Entity.isType], rfl, h⟩
  · intro hr
    refine ⟨_, yields_emitFunction.mpr ⟨?_, rfl⟩⟩
    simpa [he, Entity.uses, Entity.parts, Entity.signature] using hr.known

end

/-! ## The sheet is right -/

section

variable {config : Config} {i : Interface} {s t : Session String Unit}

theorem yields_emitPreamble :
    Yields (emitPreamble config i) s () t ↔
      t = s.printBlocks ((sheet config).opening i.name) := by
  have hheaders : ∀ u u' : Session String Unit,
      Yields (["stdbool.h", "stddef.h", "stdint.h"].forM fun header =>
        Emission.line ("#include <" ++ header ++ ">")) u () u' ↔
      u' = u.print (["stdbool.h", "stddef.h", "stdint.h"].map fun header =>
        { text := "#include <" ++ header ++ ">" }) :=
    fun u u' => yields_forM_lines (fun _ _ _ => yields_line) _
  simp only [emitPreamble, yields_bind, yields_line, yields_endBlock, hheaders, exists_eq_left,
    exists_const, Session.print_print]
  rfl

theorem yields_emitClosing (hs : s.page.atBreak = true) :
    Yields (emitClosing i) s () t ↔ t = s.print ((sheet config).closing i.name) := by
  have hrest : s.rest = s := by rw [Session.rest, Page.endBlock_of_atBreak hs]
  simp only [emitClosing, yields_bind, yields_line, yields_endBlock, exists_eq_left, exists_const,
    hrest]
  rfl

theorem body_congr {d : Decl} {read read' : TypeRef → String} {layout : Layout}
    (h : ReadAlike d.entity.uses read read') :
    (sheet config).body read layout d = (sheet config).body read' layout d := by
  dsimp only [sheet]
  cases he : d.entity with
  | aliasOf target =>
      dsimp only
      rw [aliasLine, aliasLine, Entity.forall_target he h.refs]
  | struct members =>
      dsimp only
      rw [structLines, structLines,
        map_congr_of_read memberLine_congr (Entity.forall_members he h.refs)]
  | enum variants =>
      dsimp only
      rw [h.atoms]
  | function args result =>
      have hparams : args.map (paramText read) = args.map (paramText read') :=
        map_congr_of_read (fun arg harg => by rw [paramText, paramText, harg])
          (Entity.forall_args he h.refs)
      have hname : result.map read = result.map read' :=
        Option.map_congr (Entity.forall_result he h.refs)
      dsimp only [functionLine]
      rw [hparams, hname]
  | foreign text => rfl

theorem body_inked {d : Decl} (read : TypeRef → String) (layout : Layout)
    (hcover : (backend config).Covers d) : Inked ((sheet config).body read layout d) := by
  dsimp only [sheet]
  cases he : d.entity with
  | aliasOf target =>
      refine ⟨by simp, List.forall_mem_singleton.mpr ?_⟩
      exact visible_append_right _ (by decide)
  | struct members =>
      refine ⟨by simp [structLines], fun line hline => ?_⟩
      simp only [structLines, assertLines, List.mem_append, List.mem_map, List.mem_cons,
        List.not_mem_nil, or_false] at hline
      rcases hline with ((rfl | ⟨member, -, rfl⟩) | rfl) | (rfl | rfl) | ⟨member, -, rfl⟩
      case struct.inl.inr => decide
      all_goals
        refine visible_append_right _ ?_
        decide
  | enum variants =>
      refine ⟨by simp [enumLines], fun line hline => ?_⟩
      simp only [enumLines, List.mem_append, List.mem_map, List.mem_cons, List.not_mem_nil,
        or_false] at hline
      rcases hline with (rfl | ⟨variant, -, rfl⟩) | rfl | rfl
      case inr.inl => decide
      case inr.inr => exact visible_append_left (visible_append_right _ (by decide)) _
      all_goals
        refine visible_append_right _ ?_
        decide
  | function args result =>
      refine ⟨by simp, List.forall_mem_singleton.mpr ?_⟩
      exact visible_append_right _ (by decide)
  | foreign text => simp [Backend.Covers, he, Entity.isType, Entity.isFunction] at hcover

end

theorem describes (config : Config) : (sheet config).Describes (backend config) where
  acts := by
    intro i d s h hd hcover hne
    cases he : d.entity with
    | aliasOf target => exact acts_alias h he
    | struct members => exact acts_struct h hd he
    | enum variants => exact acts_enum h he fun hnil => hne (by rw [he, hnil])
    | function args result => exact acts_function h he
    | foreign text => simp [Backend.Covers, he, Entity.isType, Entity.isFunction] at hcover
  preamble := yields_emitPreamble
  ending := yields_emitClosing
  value_congr _ := rfl
  body_congr := body_congr
  keep_congr _ := rfl
  held_keep := by simp [sheet]
  claims_of_not_emits _ := rfl
  body_inked := body_inked
  opening_inked name := by
    simp only [sheet, List.forall_mem_cons]
    exact ⟨⟨by simp, by simp [visible]⟩, ⟨by simp, by simp [visible]⟩, by simp⟩
  closing_visible := by simp [sheet, visible]
  comment_visible := by
    show visible "//" = true
    decide

end C

end HostDecl
