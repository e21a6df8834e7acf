import HostDecl.Proofs.Generate.Acceptance
import HostDecl.Proofs.Layout.Cache
import HostDecl.Proofs.Session.Notes

/-!
# What the warnings of Rust tell

A host may spell an atom with a token of another width. Rust does so for one atom, and the session
warns of it where it stands in a declaration directly, once. This is enough to know about all
layouts: as long as there is no warning, everything has the layout that it has in C
(`silent_layouts_agree`), however deep the atoms of a layout stand.
-/

namespace HostDecl

/-! ## What the Rust backend looks at -/

namespace Rust

variable {config : Config} {i : Interface} {d : Decl}

/-- Rust widens one atom. -/
theorem widens_iff (a : Atom) : AtomTable.rust.widens a = true ↔ a = .i8 := by
  cases a <;> decide

theorem looks_defineName : Emission.Looks .rust (defineName d) [] :=
  Emission.Looks.define.andThen fun _ => .pure

theorem looks_emitAlias {target : TypeRef} : Emission.Looks .rust (emitAlias i d target)
    [{ type := target, location := { declaration := d.name } }] :=
  Emission.Looks.resolve.andThen fun _ => Emission.Looks.checkWidening.followedBy fun _ =>
    looks_defineName.andThen fun _ => Emission.Looks.line.andThen fun _ => .endBlock

theorem looks_emitMember {member : Field} : Emission.Looks .rust (emitMember i d member)
    [{ type := member.type, location := { declaration := d.name, member := some member.name } }] :=
  Emission.Looks.checkWidening.followedBy fun _ => Emission.Looks.resolve.andThen fun _ => .line

theorem looks_emitStruct {members : List Field} :
    Emission.Looks .rust (emitStruct config i d members) (members.map fun member =>
      { type := member.type,
        location := { declaration := d.name, member := some member.name } }) :=
  have hmembers := Emission.Looks.forM_each members fun _ _ => looks_emitMember
  looks_defineName.andThen fun _ => Emission.Looks.layoutOf.andThen fun _ =>
    Emission.Looks.line.andThen fun _ => hmembers.block.followedBy fun _ => .endBlock

theorem looks_emitVariant {variant : String} : Emission.Looks .rust (emitVariant variant) [] :=
  .line

theorem looks_emitEnum {variants : List String} :
    Emission.Looks .rust (emitEnum config i d variants)
    [{ type := .atom config.discriminant.val, location := { declaration := d.name } }] :=
  have hvariants := Emission.Looks.forM_nothing variants fun _ _ => looks_emitVariant
  looks_defineName.andThen fun _ => Emission.Looks.checkWidening.followedBy fun _ =>
    Emission.Looks.resolve.andThen fun _ => Emission.Looks.line.andThen fun _ =>
      Emission.Looks.line.andThen fun _ => hvariants.block.andThen fun _ => .endBlock

theorem looks_emitDecl : Emission.Looks .rust ((backend config).emitDecl i d)
    (d.sites config.discriminant.val) := by
  refine Backend.looks_emitDecl ?_ ?_ ?_ ?_
  · intro target he
    rw [Decl.sites, he]
    exact looks_emitAlias
  · intro members he
    rw [Decl.sites, he]
    exact looks_emitStruct
  · intro variants he
    rw [Decl.sites, he]
    exact looks_emitEnum
  · exact fun _ _ _ => .throw

/-! ## The diagnostics of a text -/

/-- The warning for a function that is skipped. -/
def skipped (filename : String) (d : Decl) : Diagnostic :=
  (Warning.functionSkipped d.name "rust").diagnostic filename { declaration := d.name }

/-- The first place where a layout gets the atom that is widened. -/
def firstWidened (i : Interface) (discriminant : Atom) : Option Site :=
  (i.sites discriminant).find? fun site => site.type = .atom .i8

/-- The warning for a place where the atom is widened. -/
def widening (filename : String) (site : Site) : Diagnostic :=
  (Warning.widened .i8 "i32" "rust").diagnostic filename site.location

theorem code_skipped (filename : String) (d : Decl) : (skipped filename d).code = "CW0002" := rfl

theorem code_widening (filename : String) (site : Site) :
    (widening filename site).code = "CW0001" := rfl

theorem isSome_firstWidened {discriminant : Atom} :
    (firstWidened i discriminant).isSome = true ↔ i.Mentions discriminant .i8 := by
  simp [firstWidened, Interface.mentions_iff, List.find?_isSome]

variable {skipUnsupported : Bool} {filename text : String} {reporter : Reporter}

/-- With a text come the warnings for all functions, and one for the first place where the atom is
widened, if there is such a place. -/
theorem items_of_generate
    (h : Host.rust.generate config i skipUnsupported { filename } = (.ok text, reporter)) :
    reporter.items = i.functions.map (skipped filename) ++
      ((firstWidened i config.discriminant.val).map (widening filename)).toList := by
  obtain ⟨t, ht, -, rfl⟩ := Backend.generate_eq_iff.mp h
  have hnotes := Backend.notes_run rfl .pure (fun d _ => looks_emitDecl) .pure ht
  rw [Notes.foldl_warn] at hnotes
  have hitems := congrArg (fun n => n.reporter.items) hnotes
  rw [Notes.items_foldl_look widens_iff _ rfl] at hitems
  exact hitems

/-- There is a warning of the widened atom exactly if the interface mentions the atom. -/
theorem warned_iff
    (h : Host.rust.generate config i skipUnsupported { filename } = (.ok text, reporter)) :
    (∃ x ∈ reporter.items, x.code = "CW0001") ↔ i.Mentions config.discriminant.val .i8 := by
  rw [items_of_generate h, ← isSome_firstWidened]
  cases firstWidened i config.discriminant.val with
  | none => simp [code_skipped]
  | some site => simp [code_widening]

/-- Every atom but the widened one has the layout that it has in C. -/
theorem atomLayout_eq {a : Atom} (h : a ≠ .i8) :
    (Host.c.abi config).atomLayout a = (Host.rust.abi config).atomLayout a := by
  cases a with
  | i8 => exact (h rfl).elim
  | _ => rfl

/-- Where the widened atom is not mentioned, layouts are those of C. -/
theorem laidOut_c (h : ¬ i.Mentions config.discriminant.val .i8) {id : Ident} {layout : Layout}
    (hlaid : i.LaidOut (Host.rust.abi config) (.decl id) layout) :
    i.LaidOut (Host.c.abi config) (.decl id) layout := by
  have hdisc : (Host.c.abi config).discriminant = (Host.rust.abi config).discriminant := rfl
  refine hlaid.of_mentions hdisc (fun a ha => atomLayout_eq ?_) nofun
  rintro rfl
  exact h ha

end Rust

/-! ## Silence -/

/-- With a text for Rust come a warning for each function, in order, and then at most one warning of
the widened atom, at the first place where it stands. There is one exactly if an alias's target or a
struct's member is directly that atom, or if there is an enum and it is the discriminant. If there
is none, all types have the same layouts as in C. -/
theorem silent_layouts_agree (config : Config) (i : Interface) (skipUnsupported : Bool)
    (filename text : String) (reporter : Reporter) (hi : i.Distinct)
    (h : Host.rust.generate config i skipUnsupported { filename } = (.ok text, reporter)) :
    reporter.items = i.functions.map (Rust.skipped filename) ++
      ((Rust.firstWidened i config.discriminant.val).map (Rust.widening filename)).toList ∧
    ((∃ x ∈ reporter.items, x.code = "CW0001") ↔ i.Mentions config.discriminant.val .i8) ∧
    ((∀ x ∈ reporter.items, x.code ≠ "CW0001") → ∀ d ∈ i.decls, d.entity.isType = true →
      ∃ layout, Sizing.fresh i (Host.rust.abi config) (.decl d.id) = .ok layout ∧
        Sizing.fresh i (Host.c.abi config) (.decl d.id) = .ok layout) := by
  have hwarned := Rust.warned_iff h
  refine ⟨Rust.items_of_generate h, hwarned, fun hsilent d hd htype => ?_⟩
  have hnot : ¬ i.Mentions config.discriminant.val .i8 := by
    rw [← hwarned]
    rintro ⟨x, hx, hcode⟩
    exact hsilent x hx hcode
  obtain ⟨t, ht, -⟩ := Backend.generate_eq_iff.mp h
  obtain ⟨layout, hlaid⟩ := ((Rust.describes config).finished hi ht).laidOut d hd htype
  exact ⟨layout, Sizing.fresh_eq_ok_iff.mpr hlaid,
    Sizing.fresh_eq_ok_iff.mpr (Rust.laidOut_c hnot hlaid)⟩

theorem silent_layouts_agree_shapes :
    ∃ text reporter, Host.rust.generate .linux .shapes true {} = (.ok text, reporter) ∧
      reporter.items.map Diagnostic.code = ["CW0002"] ∧
      ∃ layout, Sizing.fresh .shapes (Host.rust.abi .linux) (.decl ⟨3⟩) = .ok layout ∧
        Sizing.fresh .shapes (Host.c.abi .linux) (.decl ⟨3⟩) = .ok layout := by
  obtain ⟨text, htext⟩ := generates_of_accepted .rust .linux .shapes true {} (by decide)
    (by decide +kernel)
  have h : Host.rust.generate .linux .shapes true {} =
      (.ok text, (Host.rust.generate .linux .shapes true {}).2) := Prod.ext htext rfl
  obtain ⟨hitems, -, hsilent⟩ := silent_layouts_agree .linux .shapes true _ _ _ (by decide) h
  have hcodes : (Host.rust.generate .linux .shapes true {}).2.items.map Diagnostic.code =
      ["CW0002"] := by
    rw [hitems]
    rfl
  refine ⟨text, _, h, hcodes,
    hsilent (fun x hx hcode => ?_) Interface.shapes.decls[2] (by decide) rfl⟩
  have hmem : x.code ∈ ["CW0002"] := hcodes ▸ List.mem_map_of_mem hx
  rw [hcode] at hmem
  exact absurd hmem (by decide)

end HostDecl
