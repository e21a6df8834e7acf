import HostDecl.Proofs.Generate.Acceptance
import HostDecl.Proofs.Layout.DataLayout

/-!
# Types of IR are laid out as their declarations

`IrType.LaidOut` says what LLVM makes of a type: scalars as the data layout has them, a struct as
the aggregate of its elements, by the body that was given to its name. It knows neither declarations
nor idents. A declaration is resolved to such a type, and `IrType.laidOut_reading` says that the
type has the layout of the declaration. This needs only the bodies that were given before, and
since a name gets one body, later ones make no difference.
-/

namespace HostDecl

namespace Ir

/-- The layouts of types, in a target with the data layout and after the bodies were given. -/
inductive IrType.LaidOut (dataLayout : String) (bodies : List (String × List IrType)) :
    IrType → Layout → Prop
  | int (bits : Nat) : LaidOut dataLayout bodies (.int bits) (scalar dataLayout .integer bits)
  | float : LaidOut dataLayout bodies .float (scalar dataLayout .float 32)
  | double : LaidOut dataLayout bodies .double (scalar dataLayout .float 64)
  | struct {name : String} {elements : List IrType} {layouts : List Layout}
      (hbody : bodies.lookup name = some elements) (hlen : elements.length = layouts.length)
      (h : ∀ p ∈ elements.zip layouts, LaidOut dataLayout bodies p.1 p.2) :
      LaidOut dataLayout bodies (.struct name) (aggregate layouts)

namespace IrType.LaidOut

variable {dataLayout : String} {bodies : List (String × List IrType)}

theorem ofStruct {name : String} {elements : List IrType} {layout : Layout}
    (h : (IrType.struct name).LaidOut dataLayout bodies layout)
    (hbody : bodies.lookup name = some elements) :
    ∃ layouts, layout = aggregate layouts ∧
      List.Forall₂ (IrType.LaidOut dataLayout bodies) elements layouts := by
  cases h with
  | @struct _ _ layouts hbody' hlen h =>
      obtain rfl := Option.some.inj (hbody'.symm.trans hbody)
      exact ⟨layouts, rfl, List.forall₂_iff_zip.mpr ⟨hlen, fun hp => h _ hp⟩⟩

/-- A type has at most one layout. -/
theorem unique {type : IrType} {layout layout' : Layout}
    (h : type.LaidOut dataLayout bodies layout) (h' : type.LaidOut dataLayout bodies layout') :
    layout = layout' := by
  induction h generalizing layout' with
  | int bits => cases h'; rfl
  | float => cases h'; rfl
  | double => cases h'; rfl
  | struct hbody hlen _ ih =>
      obtain ⟨layouts', rfl, hall⟩ := h'.ofStruct hbody
      rw [forall₂_unique (List.forall₂_iff_zip.mpr ⟨hlen, fun hp l' => ih _ hp⟩) hall]

/-- The type of an atom is laid out as the atom. -/
theorem ofAtom (config : Config) (a : Atom) :
    (IrType.ofAtom a).LaidOut config.target.arch.dataLayout bodies
      ((Host.llvm.abi config).atomLayout a) := by
  have hatom : (Host.llvm.abi config).atomLayout a =
      scalar config.target.arch.dataLayout a.scalarKind a.bits := by
    rw [Arch.scalar_eq]
    cases a <;> rfl
  rw [hatom]
  cases a with
  | f32 => exact .float
  | f64 => exact .double
  | _ => exact .int _

end IrType.LaidOut

end Ir

namespace Llvm

open Ir

/-! ## Bodies -/

/-- The name and the body that a struct gives. -/
def structBody? (read : TypeRef → IrType) (d : Decl) : Option (String × List IrType) :=
  match d.entity with
  | .struct members => some (Rules.llvm.typeName d.name, structElements read members)
  | _ => none

/-- The bodies that declarations give, the last one in front. -/
def bodies (read : TypeRef → IrType) (decls : List Decl) : List (String × List IrType) :=
  (decls.filterMap (structBody? read)).reverse

variable {config : Config} {i : Interface} {t : Session IrType Scope}

theorem bodies_append (read : TypeRef → IrType) (decls decls' : List Decl) :
    bodies read (decls ++ decls') = bodies read decls' ++ bodies read decls := by
  rw [bodies, List.filterMap_append, List.reverse_append]
  rfl

theorem bodies_struct (read : TypeRef → IrType) {d : Decl} {members : List Field}
    (he : d.entity = .struct members) :
    bodies read [d] = [(Rules.llvm.typeName d.name, structElements read members)] := by
  simp [bodies, structBody?, he]

theorem bodies_foldl_keep (read : TypeRef → IrType) (decls : List Decl) (own : Scope) :
    (decls.foldl (fun own d => (sheet config).keep read d own) own).bodies =
      bodies read decls ++ own.bodies := by
  induction decls generalizing own with
  | nil => rfl
  | cons d decls ih =>
      rw [List.foldl_cons, ih, ← List.singleton_append, bodies_append, List.append_assoc]
      congr 1
      cases he : d.entity with
      | struct members =>
          rw [bodies_struct read he]
          simp [sheet, he, Scope.withBody]
      | _ => simp [sheet, he, bodies, structBody?, Scope.withGlobals]

theorem bodies_names (read : TypeRef → IrType) (i : Interface) :
    ((bodies read i.decls).map Prod.fst).reverse = i.irStructNames := by
  rw [bodies, List.map_reverse, List.reverse_reverse, List.map_filterMap,
    List.filterMap_eq_flatMap_toList, Interface.irStructNames]
  congr 1
  funext d
  dsimp only [structBody?]
  cases d.entity <;> rfl

/-- If no two structs have a name in common, the body that was given to a name is found. -/
theorem lookup_bodies {read : TypeRef → IrType} {done todo : List Decl}
    (hsplit : i.decls = done ++ todo) (hnames : i.irStructNames.Nodup) {name : String}
    {elements : List IrType} (h : (name, elements) ∈ bodies read done) :
    (bodies read done).lookup name = some elements := by
  have hnodup : ((bodies read done).map Prod.fst).Nodup := by
    rw [← bodies_names read, List.nodup_reverse, hsplit, bodies_append, List.map_append] at hnames
    exact hnames.of_append_right
  exact lookup_eq_some_of_mem hnodup h

/-! ## Types and their layouts -/

/-- What a reference to one of the first declarations reads as is laid out like the reference,
with no more than the bodies of these declarations. -/
theorem laidOut_reading {skipUnsupported : Bool} (hi : i.Distinct)
    (hend : (sheet config).Finished (backend config) i t)
    (haccepted : i.Accepted .llvm skipUnsupported) {done todo : List Decl}
    (hsplit : i.decls = done ++ todo) {type : TypeRef} {layout : Layout}
    (h : i.LaidOut (Host.llvm.abi config) type layout) (htype : type.DeclaredIn done) :
    (t.defined.reading IrType.ofAtom type).LaidOut config.target.arch.dataLayout
      (bodies (t.defined.reading IrType.ofAtom) done) layout := by
  have hsub : ∀ d ∈ done, d ∈ i.decls := fun d hd => hsplit ▸ List.mem_append_left _ hd
  have hparts : ∀ d ∈ done, ∀ type ∈ d.entity.parts, type.DeclaredIn done :=
    fun d hd type hpart =>
      haccepted.ordered.declaredIn hsplit hd (List.mem_append_left _ hpart)
  -- A declaration that the derivation looks up is one of the first, and reads as the sheet says.
  have hfound : ∀ {id d}, i.get? id = some d → (TypeRef.decl id).DeclaredIn done →
      d ∈ done ∧ t.defined.reading IrType.ofAtom (.decl id) =
        (sheet config).value (t.defined.reading IrType.ofAtom) d := by
    intro id d hd hdeclared
    obtain ⟨d', hmem, hd', hist⟩ := Interface.mem_of_declaredIn hi hsub hdeclared
    obtain rfl := Option.some.inj (hd'.symm.trans hd)
    obtain rfl := Interface.id_of_get? hd
    exact ⟨hmem, hend.reading_decl (hsub d' hmem) hist⟩
  induction h with
  | atom a => exact .ofAtom config a
  | @aliasOf id d target layout hd he _ ih =>
      obtain ⟨hmem, hread⟩ := hfound hd htype
      rw [hread]
      simp only [sheet, he]
      exact ih (hparts d hmem target (by simp [he, Entity.parts]))
  | @struct id d members layouts hd he hlen hl ih =>
      obtain ⟨hmem, hread⟩ := hfound hd htype
      rw [hread, ← Interface.LaidOut.aggregate_eq hlen hl]
      simp only [sheet, he]
      have hbody : structBody? (t.defined.reading IrType.ofAtom) d =
          some (Rules.llvm.typeName d.name,
            structElements (t.defined.reading IrType.ofAtom) members) := by
        simp only [structBody?, he]
      refine .struct (lookup_bodies hsplit (haccepted.structNames rfl).2
        (List.mem_reverse.mpr (List.mem_filterMap.mpr ⟨d, hmem, hbody⟩))) ?_ ?_
      · rw [structElements, List.length_map, hlen]
      · rw [structElements, List.zip_map_left]
        intro p hp
        obtain ⟨q, hq, rfl⟩ := List.mem_map.mp hp
        refine ih q hq (hparts d hmem q.1.type ?_)
        rw [he]
        exact List.mem_map.mpr ⟨q.1, (List.of_mem_zip hq).1, rfl⟩
  | @enum id d variants hd he =>
      obtain ⟨hmem, hread⟩ := hfound hd htype
      rw [hread]
      simp only [sheet, he]
      exact .ofAtom config _

/-- So it has that layout and no other. -/
theorem laidOut_iff {skipUnsupported : Bool} (hi : i.Distinct)
    (hend : (sheet config).Finished (backend config) i t)
    (haccepted : i.Accepted .llvm skipUnsupported) {done todo : List Decl}
    (hsplit : i.decls = done ++ todo) {d : Decl} (hd : d ∈ done) (htype : d.entity.isType = true)
    {layout : Layout} (h : i.LaidOut (Host.llvm.abi config) (.decl d.id) layout) (l : Layout) :
    (t.defined.reading IrType.ofAtom (.decl d.id)).LaidOut config.target.arch.dataLayout
      (bodies (t.defined.reading IrType.ofAtom) done) l ↔ l = layout := by
  have hir := laidOut_reading hi hend haccepted hsplit h ⟨d, hd, rfl, htype⟩
  constructor
  · intro hl
    exact hl.unique hir
  · rintro rfl
    exact hir

theorem get?_eq_reading (hend : (sheet config).Finished (backend config) i t) {d : Decl}
    (hd : d ∈ i.decls) (htype : d.entity.isType = true) :
    t.defined.get? d.id = some (t.defined.reading IrType.ofAtom (.decl d.id)) :=
  (hend.value d hd htype).trans (congrArg some (hend.reading_decl hd htype).symm)

/-- A run leaves the bodies that the declarations give. -/
theorem own_bodies (hend : (sheet config).Finished (backend config) i t) :
    t.own.bodies = bodies (t.defined.reading IrType.ofAtom) i.decls := by
  rw [hend.own, filter_emits]
  exact (bodies_foldl_keep _ _ _).trans (List.append_nil _)

/-! ## Lines of the text -/

/-- The lines of some declarations. -/
def declLines (config : Config) (i : Interface) (read : TypeRef → IrType) (decls : List Decl) :
    List String :=
  blockLines (decls.map fun d => (sheet config).piece (backend config) i d read)

/-- The line of a struct and the comment that follows it. -/
theorem piece_struct (read : TypeRef → IrType) {d : Decl} {members : List Field}
    (he : d.entity = .struct members) :
    ((sheet config).piece (backend config) i d read).map Line.shown =
      [((backend config).headerLine i d).shown,
        structLine (Rules.llvm.typeName d.name) (structElements read members),
        "; size " ++ toString (i.layoutOf (Host.llvm.abi config) d.id).size ++ ", align " ++
          toString (i.layoutOf (Host.llvm.abi config) d.id).align] := by
  have hheader : (backend config).header i d = [(backend config).headerLine i d] := by
    simp [Backend.header, he, Entity.isFunction]
  rw [Sheet.piece, hheader]
  simp only [sheet, he, structLines, List.cons_append, List.nil_append, List.map_cons,
    List.map_nil, sizeLine, Line.shown_mk_text]
  rfl

/-- A body that declarations give has its line among the lines of these declarations. -/
theorem structLine_mem_declLines {read : TypeRef → IrType} {decls : List Decl}
    {body : String × List IrType} (h : body ∈ bodies read decls) :
    structLine body.1 body.2 ∈ declLines config i read decls := by
  obtain ⟨d, hd, hbody⟩ := List.mem_filterMap.mp (List.mem_reverse.mp h)
  cases he : d.entity with
  | struct members =>
      simp only [structBody?, he] at hbody
      obtain rfl := Option.some.inj hbody
      refine List.mem_flatMap.mpr ⟨_, List.mem_map.mpr ⟨d, hd, rfl⟩, List.mem_append_left _ ?_⟩
      rw [piece_struct read he]
      simp
  | _ => simp [structBody?, he] at hbody

/-- The text is the lines of the preamble and those of the declarations. -/
theorem text_eq (hend : (sheet config).Finished (backend config) i t) :
    t.page.text = linesText (blockLines ((sheet config).opening i.name) ++
      declLines config i (t.defined.reading IrType.ofAtom) i.decls) := by
  have hclosing : (sheet config).epilogue i.name = "" := rfl
  rw [hend.text, hclosing, String.append_empty, Sheet.prelude, join_blockText, filter_emits,
    linesText_append, declLines, ← join_blockText (i.decls.map _), List.map_map]
  rfl

/-- The text has some lines with those of the earlier bodies before and those of the later bodies
after them. -/
def TextAround (text : String) (earlier : List (String × List IrType)) (lines : List String)
    (later : List (String × List IrType)) : Prop :=
  ∃ before after, text = linesText (before ++ lines ++ after) ∧
    (∀ body ∈ earlier, structLine body.1 body.2 ∈ before) ∧
      ∀ body ∈ later, structLine body.1 body.2 ∈ after

theorem textAround_struct (hend : (sheet config).Finished (backend config) i t)
    {done todo : List Decl} {d : Decl} (hsplit : i.decls = done ++ d :: todo)
    {members : List Field} (he : d.entity = .struct members) {layout : Layout}
    (hlayout : i.layoutOf (Host.llvm.abi config) d.id = layout) :
    TextAround t.page.text (bodies (t.defined.reading IrType.ofAtom) done)
      [structLine (Rules.llvm.typeName d.name)
          (structElements (t.defined.reading IrType.ofAtom) members),
        "; size " ++ toString layout.size ++ ", align " ++ toString layout.align]
      (bodies (t.defined.reading IrType.ofAtom) todo) := by
  subst hlayout
  generalize hread : t.defined.reading IrType.ofAtom = read
  refine ⟨blockLines ((sheet config).opening i.name) ++ declLines config i read done ++
      [((backend config).headerLine i d).shown], "" :: declLines config i read todo, ?_,
    fun body hbody => ?_, fun body hbody => ?_⟩
  · have hlines : declLines config i read i.decls = declLines config i read done ++
        (((sheet config).piece (backend config) i d read).map Line.shown ++
          "" :: declLines config i read todo) := by
      rw [hsplit, declLines, List.map_append, blockLines_append, declLines, List.map_cons,
        ← List.singleton_append, blockLines_append]
      simp [blockLines, declLines]
    rw [text_eq hend, hread, hlines, piece_struct read he]
    simp [List.append_assoc]
  · exact List.mem_append_left _ (List.mem_append_right _ (structLine_mem_declLines hbody))
  · exact List.mem_cons_of_mem _ (structLine_mem_declLines hbody)

/-- After a run, every type is registered as a type of IR that has the layout of the declaration,
offsets included. A struct's line is followed by a comment with size and alignment; they are those
that the type has by the bodies given up to that line. -/
theorem registered_types_laid_out (config : Config) (i : Interface) (skipUnsupported : Bool)
    (reporter : Reporter) (t : Session IrType Scope) (hi : i.Distinct)
    (h : Yields ((backend config).run i skipUnsupported) ((backend config).newSession reporter)
      () t) :
    (∀ d ∈ i.decls, d.entity.isType = true → ∃ type layout,
      t.defined.get? d.id = some type ∧
      (Sizing.layoutOf { interface := i, abi := Host.llvm.abi config } d.id).1 = .ok layout ∧
      ∀ l, type.LaidOut config.target.arch.dataLayout t.own.bodies l ↔ l = layout) ∧
    ∀ d ∈ i.decls, ∀ members, d.entity = .struct members →
      ∃ name elements layout earlier later,
        t.defined.get? d.id = some (.struct name) ∧
        t.own.bodies = later ++ (name, elements) :: earlier ∧
        TextAround t.page.text earlier [structLine name elements,
          "; size " ++ toString layout.size ++ ", align " ++ toString layout.align] later ∧
        ∀ l, (IrType.struct name).LaidOut config.target.arch.dataLayout
          ((name, elements) :: earlier) l ↔ l = layout := by
  have hend := (describes config).finished hi h
  have haccepted := emittable_llvm_iff.mp (((describes config).run_succeeds_iff hi).mp ⟨t, h⟩)
  have hbodies := own_bodies hend
  constructor
  · intro d hd htype
    obtain ⟨layout, hlayout⟩ := hend.laidOut d hd htype
    refine ⟨_, layout, get?_eq_reading hend hd htype,
      (Sizing.layoutOf_eq_ok_iff (Sizing.sound_new _ _)).mpr hlayout, ?_⟩
    rw [hbodies]
    exact laidOut_iff hi hend haccepted (List.append_nil _).symm hd htype hlayout
  · intro d hd members he
    have htype : d.entity.isType = true := by rw [he]; rfl
    obtain ⟨layout, hlayout⟩ := hend.laidOut d hd htype
    obtain ⟨done, todo, hsplit⟩ := List.append_of_mem hd
    have hstruct : t.defined.reading IrType.ofAtom (.decl d.id) =
        .struct (Rules.llvm.typeName d.name) := by
      refine (hend.reading_decl hd htype).trans ?_
      simp only [sheet, he]
    refine ⟨_, _, layout, bodies (t.defined.reading IrType.ofAtom) done,
      bodies (t.defined.reading IrType.ofAtom) todo, ?_, ?_,
      textAround_struct hend hsplit he hlayout.layoutOf_eq, ?_⟩
    · rw [get?_eq_reading hend hd htype, hstruct]
    · rw [hbodies, hsplit, ← List.singleton_append, bodies_append, bodies_append,
        bodies_struct _ he, List.append_assoc]
      rfl
    · have hsplit' : i.decls = (done ++ [d]) ++ todo := by simp [hsplit]
      have hd' : bodies (t.defined.reading IrType.ofAtom) (done ++ [d]) =
          (Rules.llvm.typeName d.name,
              structElements (t.defined.reading IrType.ofAtom) members) ::
            bodies (t.defined.reading IrType.ofAtom) done := by
        rw [bodies_append, bodies_struct _ he]
        rfl
      rw [← hd', ← hstruct]
      exact laidOut_iff hi hend haccepted hsplit' (by simp) htype hlayout

theorem registered_types_laid_out_shapes : ∃ t : Session IrType Scope,
    Yields ((backend .linux).run .shapes false) ((backend .linux).newSession {}) () t ∧
    ∃ type, t.defined.get? ⟨3⟩ = some type ∧
      type.LaidOut Config.linux.target.arch.dataLayout t.own.bodies
        { size := 16, align := 8, offsets := [0, 8] } := by
  obtain ⟨t, ht⟩ := ((describes .linux).run_succeeds_iff (by decide)).mpr
    (emittable_llvm_iff.mpr (by decide +kernel : Interface.shapes.Accepted .llvm false))
  obtain ⟨hall, -⟩ := registered_types_laid_out .linux .shapes false {} t (by decide) ht
  obtain ⟨type, layout, htype, hlayout, hiff⟩ :=
    hall Interface.shapes.decls[2] (by decide) (by decide)
  have hmeasured : (Sizing.layoutOf { interface := .shapes, abi := Host.llvm.abi .linux } ⟨3⟩).1 =
      .ok { size := 16, align := 8, offsets := [0, 8] } := by
    decide +kernel
  exact ⟨t, ht, type, htype, (hiff _).mpr (Except.ok.inj (hmeasured.symm.trans hlayout))⟩

end Llvm

end HostDecl
