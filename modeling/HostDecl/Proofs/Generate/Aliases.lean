import HostDecl.Proofs.Generate.Pieces
import HostDecl.Proofs.Layout.Inline

/-!
# Aliases are transparent

A reference to an alias means what its target means. So the target can be put in place of the alias
everywhere: layouts stay, and so does all of the text in IR but for the comments that describe the
declarations (`aliases_transparent`). In IR an alias resolves to the type of its target, so the
registries of the two runs hold the same types (`Llvm.get?_inline`), and a declaration is written by
what its references read as.
-/

namespace HostDecl

variable {i : Interface} {a : Ident} {r : TypeRef} {f : TypeRef → TypeRef}

/-! ## Acceptance -/

namespace Interface

theorem declaredIn_map {decls : List Decl} {type : TypeRef} :
    type.DeclaredIn (decls.map (Decl.mapTypes f)) ↔ type.DeclaredIn decls := by
  cases type with
  | atom a => rfl
  | decl id => simp [TypeRef.DeclaredIn, Decl.mapTypes]
  | foreign text => rfl

/-- Where an alias is declared, its target is declared as well. -/
theorem Ordered.declaredIn_inline (h : i.Ordered Entity.uses) (hi : i.Distinct)
    (ha : i.IsAlias a r) {done todo : List Decl} (hsplit : i.decls = done ++ todo) {type : TypeRef}
    (htype : type.DeclaredIn done) : (TypeRef.inline a r type).DeclaredIn done := by
  unfold TypeRef.inline
  split
  · rename_i heq
    subst heq
    obtain ⟨d, hd, he⟩ := ha
    obtain ⟨d', hd', hget, -⟩ := mem_of_declaredIn hi (by simp +contextual [hsplit]) htype
    obtain rfl := Option.some.inj (hget.symm.trans hd)
    exact h.declaredIn hsplit hd' (by simp [he, Entity.uses, Entity.parts])
  · exact htype

theorem Ordered.inline (h : i.Ordered Entity.uses) (hi : i.Distinct) (ha : i.IsAlias a r) :
    (i.inline a r).Ordered Entity.uses := by
  intro before d after hsplit type htype
  obtain ⟨front, rest, hdecls, rfl, hrest⟩ := List.map_eq_append_iff.mp hsplit
  obtain ⟨d', rest', rfl, rfl, -⟩ := List.map_eq_cons_iff.mp hrest
  rw [Decl.mapTypes, Entity.uses_mapTypes] at htype
  obtain ⟨type', htype', rfl⟩ := List.mem_map.mp htype
  exact declaredIn_map.mpr (h.declaredIn_inline hi ha hdecls (h front d' rest' hdecls type' htype'))

theorem irStructNames_mapTypes : (i.mapTypes f).irStructNames = i.irStructNames := by
  rw [irStructNames, mapTypes, List.flatMap_map, irStructNames]
  congr 1
  funext d
  cases he : d.entity <;> simp [Decl.mapTypes, Entity.mapTypes, he]

theorem irGlobalNames_mapTypes : (i.mapTypes f).irGlobalNames = i.irGlobalNames := by
  rw [irGlobalNames, mapTypes, List.flatMap_map, irGlobalNames]
  congr 1
  funext d
  cases he : d.entity <;> simp [Decl.mapTypes, Entity.mapTypes, he]

/-- Putting the target in place of an alias, an interface stays accepted for IR. -/
theorem Accepted.inline {skipUnsupported : Bool} (h : i.Accepted .llvm skipUnsupported)
    (hi : i.Distinct) (ha : i.IsAlias a r) : (i.inline a r).Accepted .llvm skipUnsupported where
  native := List.forall_mem_map.mpr fun d hd => by
    simpa [Decl.mapTypes] using h.native d hd
  ordered := h.ordered.inline hi ha
  inhabited := List.forall_mem_map.mpr fun d hd he =>
    h.inhabited d hd (Entity.mapTypes_eq_enum he)
  functions := nofun
  structNames _ := by
    rw [Interface.inline, irStructNames_mapTypes]
    exact h.structNames rfl
  globalNames _ := by
    rw [Interface.inline, irGlobalNames_mapTypes]
    exact h.globalNames rfl

end Interface

namespace Llvm

open Ir

variable {config : Config} {d : Decl} {read : TypeRef → IrType}
  {t t' : Session IrType Scope}

/-! ## What a declaration is written as -/

/-- What a type resolves to depends on what its references read as, not on which they are. -/
theorem value_mapTypes (h : ∀ type, read (f type) = read type) :
    (sheet config).value read (d.mapTypes f) = (sheet config).value read d := by
  unfold sheet
  cases he : d.entity <;> simp [Decl.mapTypes, Entity.mapTypes, he, h]

theorem body_mapTypes (h : ∀ type, read (f type) = read type) (layout : Layout) :
    (sheet config).body read layout (d.mapTypes f) = (sheet config).body read layout d := by
  dsimp only [sheet, Decl.mapTypes]
  cases he : d.entity with
  | aliasOf target => simp [Entity.mapTypes, typeLine, h]
  | struct members =>
      simp [Entity.mapTypes, structLines, structElements, Field.mapType, Function.comp_def, h]
  | enum variants => rfl
  | function args result =>
      simp [Entity.mapTypes, prototypeLine, Field.mapType, Function.comp_def, h]
  | foreign text => rfl

/-! ## The text of one run -/

/-- The comment in front of a declaration, for types. -/
def headerLines (i : Interface) (d : Decl) : List String :=
  if d.entity.isFunction then [] else ["; " ++ d.name ++ ": " ++ i.describe d.entity]

/-- The lines of a declaration behind its comment, after a run. -/
def bodyLines (config : Config) (i : Interface) (t : Session IrType Scope) (d : Decl) :
    List String :=
  ((sheet config).body (t.defined.reading (backend config).atomType)
    (i.layoutOf (backend config).abi d.id) d).map Line.shown

theorem shown_header : ((backend config).header i d).map Line.shown = headerLines i d := by
  unfold Backend.header headerLines
  split
  · rfl
  · simp only [List.map_cons, List.map_nil, Backend.headerLine, Line.shown_mk_text]
    rfl

theorem text_of_bodyLines (hend : (sheet config).Finished (backend config) i t) :
    t.page.text = (backend config).prelude i ++ String.join (i.decls.map fun d =>
      linesText (headerLines i d ++ bodyLines config i t d) ++ "\n") ++
        (backend config).epilogue i := by
  rw [hend.text, filter_emits, (describes config).prelude_eq, (describes config).epilogue_eq]
  simp only [blockText, Sheet.piece, List.map_append, shown_header, bodyLines]

/-! ## Two runs -/

/-- After a run, an alias reads as its target. -/
theorem reading_inline (hend : (sheet config).Finished (backend config) i t) (ha : i.IsAlias a r)
    (type : TypeRef) : t.defined.reading (backend config).atomType (.inline a r type) =
      t.defined.reading (backend config).atomType type := by
  unfold TypeRef.inline
  split
  · rename_i htype
    obtain ⟨d, hd, he⟩ := ha
    obtain rfl := Interface.id_of_get? hd
    rw [htype, hend.reading_decl (Interface.mem_of_get? hd) (by simp [he, Entity.isType])]
    simp [sheet, he]
  · rfl

section

variable (hend : (sheet config).Finished (backend config) i t)
  (hend' : (sheet config).Finished (backend config) (i.inline a r) t')
  (hordered : i.Ordered Entity.uses) (ha : i.IsAlias a r) (hr : r ≠ .decl a)

include hend hend' hordered ha hr

/-- The two registries hold the same types. -/
theorem get?_inline :
    ∀ d ∈ i.decls, d.entity.isType = true → t.defined.get? d.id = t'.defined.get? d.id := by
  refine hordered.induction fun d hd hrefs htype => ?_
  have hmem : d.mapTypes (.inline a r) ∈ (i.inline a r).decls := List.mem_map_of_mem hd
  have halike : ReadAlike d.entity.uses (t.defined.reading (backend config).atomType)
      (t'.defined.reading (backend config).atomType) := by
    refine readAlike_of_get? fun id hid => ?_
    obtain ⟨d', -, rfl, htype', heq⟩ := hrefs id hid
    exact heq htype'
  have hvalue' := hend'.value _ hmem (by simpa [Decl.mapTypes] using htype)
  rw [value_mapTypes (reading_inline hend' (ha.inline hr))] at hvalue'
  rw [hend.value d hd htype, (describes config).value_congr halike]
  exact hvalue'.symm

/-- What the references of a declaration read as is the same in both. -/
theorem readAlike_inline (hd : d ∈ i.decls) :
    ReadAlike d.entity.uses (t.defined.reading (backend config).atomType)
      (t'.defined.reading (backend config).atomType) := by
  refine readAlike_of_get? fun id hid => ?_
  have hknown := hend.known d (List.mem_filter.mpr ⟨hd, rfl⟩) _ hid
  obtain ⟨d', hd', rfl, htype⟩ := hend.declared hknown
  exact get?_inline hend hend' hordered ha hr d' hd' htype

/-- So each declaration is written the same, but for its comment. -/
theorem bodyLines_inline (hd : d ∈ i.decls) :
    bodyLines config (i.inline a r) t' (d.mapTypes (.inline a r)) = bodyLines config i t d := by
  have hlayout : (i.inline a r).layoutOf (backend config).abi d.id =
      i.layoutOf (backend config).abi d.id :=
    Interface.layoutOf_congr fun _ => Interface.laidOut_inline ha hr
  rw [bodyLines, bodyLines, body_mapTypes (reading_inline hend' (ha.inline hr)),
    ← (describes config).body_congr (readAlike_inline hend hend' hordered ha hr hd)]
  exact congrArg (fun layout => List.map Line.shown ((sheet config).body _ layout d)) hlayout

/-- The text of the second run has the comments of its own interface, and the rest of the first. -/
theorem text_inline : t'.page.text = (backend config).prelude i ++
    String.join (i.decls.map fun d => linesText
      (headerLines (i.inline a r) (d.mapTypes (.inline a r)) ++ bodyLines config i t d) ++ "\n") ++
    (backend config).epilogue i := by
  have hdecls : (i.inline a r).decls = i.decls.map (Decl.mapTypes (.inline a r)) := rfl
  have hpieces := List.map_congr_left fun d hd => congrArg
    (fun body => linesText (headerLines (i.inline a r) (d.mapTypes (.inline a r)) ++ body) ++ "\n")
    (bodyLines_inline hend hend' hordered ha hr hd)
  have hprelude : (backend config).prelude (i.inline a r) = (backend config).prelude i := by
    rw [(describes config).prelude_eq, (describes config).prelude_eq]
    rfl
  have hepilogue : (backend config).epilogue (i.inline a r) = (backend config).epilogue i := by
    rw [(describes config).epilogue_eq, (describes config).epilogue_eq]
    rfl
  rw [text_of_bodyLines hend', hdecls, List.map_map, hprelude, hepilogue]
  exact congrArg (fun pieces => _ ++ String.join pieces ++ _) hpieces

end

end Llvm

/-- Putting the target of an alias in place of the alias everywhere changes no layout. If there is a
text in IR, there is one afterwards as well, and the two differ at most in the comments in front of
the declarations. -/
theorem aliases_transparent (i : Interface) (d : Decl) (r : TypeRef) (hi : i.Distinct)
    (hd : d ∈ i.decls) (he : d.entity = .aliasOf r) (hr : r ≠ .decl d.id) :
    (∀ abi id layout, Sizing.fresh (i.inline d.id r) abi (.decl id) = .ok layout ↔
      Sizing.fresh i abi (.decl id) = .ok layout) ∧
    ∀ config skipUnsupported reporter text,
      (Host.llvm.generate config i skipUnsupported reporter).1 = .ok text →
      ∃ text', (Host.llvm.generate config (i.inline d.id r) skipUnsupported reporter).1 =
          .ok text' ∧
        ∃ body : Decl → List String,
          text = Host.llvm.prelude config i ++ String.join (i.decls.map fun d =>
            linesText (Llvm.headerLines i d ++ body d) ++ "\n") ++ Host.llvm.epilogue config i ∧
          text' = Host.llvm.prelude config i ++ String.join (i.decls.map fun e =>
            linesText (Llvm.headerLines (i.inline d.id r) (e.mapTypes (.inline d.id r)) ++ body e)
              ++ "\n") ++ Host.llvm.epilogue config i := by
  have ha : i.IsAlias d.id r := ⟨d, Interface.get?_of_mem hi hd, he⟩
  have ha' := ha.inline hr
  refine ⟨fun abi id layout => ?_, fun config skipUnsupported reporter text h => ?_⟩
  · rw [Sizing.fresh_eq_ok_iff, Sizing.fresh_eq_ok_iff]
    exact Interface.laidOut_inline ha hr
  · have hsh := Llvm.describes config
    have hi' : (i.inline d.id r).Distinct := hi.mapTypes
    have haccepted := (hsh.outcomes hi emittable_llvm_iff).1.mp ⟨text, h⟩
    obtain ⟨text', h'⟩ := (hsh.outcomes hi' emittable_llvm_iff).1.mpr (haccepted.inline hi ha)
    refine ⟨text', h', ?_⟩
    obtain ⟨t, ht, rfl⟩ := Backend.generate_eq_ok_iff.mp h
    obtain ⟨t', ht', rfl⟩ := Backend.generate_eq_ok_iff.mp h'
    have hend := hsh.finished hi ht
    have hend' := hsh.finished hi' ht'
    exact ⟨Llvm.bodyLines config i t, Llvm.text_of_bodyLines hend,
      Llvm.text_inline hend hend' haccepted.ordered ha hr⟩

/-- The sample with `f64` in place of its alias. -/
def Interface.plainShapes : Interface :=
  shapes.inline ⟨1⟩ (.atom .f64)

theorem aliases_transparent_shapes :
    (∀ layout, Sizing.fresh .plainShapes (Host.c.abi .linux) (.decl ⟨3⟩) = .ok layout ↔
      Sizing.fresh .shapes (Host.c.abi .linux) (.decl ⟨3⟩) = .ok layout) ∧
    ∃ text text', (Host.llvm.generate .linux .shapes false {}).1 = .ok text ∧
      (Host.llvm.generate .linux .plainShapes false {}).1 = .ok text' ∧
      ∃ body : Decl → List String,
        text = Host.llvm.prelude .linux .shapes ++ String.join (Interface.shapes.decls.map fun d =>
          linesText (Llvm.headerLines .shapes d ++ body d) ++ "\n") ++
            Host.llvm.epilogue .linux .shapes ∧
        text' = Host.llvm.prelude .linux .shapes ++ String.join (Interface.shapes.decls.map fun e =>
          linesText (Llvm.headerLines .plainShapes (e.mapTypes (.inline ⟨1⟩ (.atom .f64)))
            ++ body e) ++ "\n") ++ Host.llvm.epilogue .linux .shapes := by
  obtain ⟨hlayouts, htexts⟩ := aliases_transparent .shapes Interface.shapes.decls[0] (.atom .f64)
    (by decide) (by decide) rfl (by decide)
  obtain ⟨text, h⟩ := generates_of_accepted .llvm .linux .shapes false {} (by decide)
    (by decide +kernel)
  obtain ⟨text', h', hbody⟩ := htexts .linux false {} text h
  exact ⟨hlayouts _ _, text, text', h, h', hbody⟩

end HostDecl
