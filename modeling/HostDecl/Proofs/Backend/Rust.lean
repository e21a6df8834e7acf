import HostDecl.Backend.Rust
import HostDecl.Proofs.Session.Run

/-!
# The sheet of the Rust backend

What the Rust backend writes for each kind of declaration, as lines, and the proof that it writes
exactly that (`Rust.describes`). On the way it may report that an atom is widened; the reports are
the one part of the session that the sheet is silent about.
-/

namespace HostDecl

namespace Rust

/-! ## Lines -/

def aliasLine (read : TypeRef → String) (d : Decl) (target : TypeRef) : Line where
  text := "pub type " ++ Rules.rust.typeName d.name ++ " = " ++ read target ++ ";"

def memberLine (read : TypeRef → String) (member : Field) : Line where
  text := "pub " ++ Rules.rust.fieldName member.name ++ ": " ++ read member.type ++ ","
  depth := 1

def structLines (read : TypeRef → String) (d : Decl) (members : List Field) : List Line :=
  [{ text := "#[repr(C)]" },
    { text := "pub struct " ++ Rules.rust.typeName d.name ++ " \x7b" }]
  ++ members.map (memberLine read) ++ [{ text := "\x7d" }]

def variantLine (variant : String) : Line where
  text := Rules.rust.variantName variant ++ ","
  depth := 1

def enumLines (reprName : String) (d : Decl) (variants : List String) : List Line :=
  [{ text := "#[repr(" ++ reprName ++ ")]" },
    { text := "#[derive(Clone, Copy, Debug, PartialEq, Eq, PartialOrd, Ord, Hash)]" },
    { text := "pub enum " ++ Rules.rust.typeName d.name ++ " \x7b" }]
  ++ variants.map variantLine ++ [{ text := "\x7d" }]

/-- What the Rust backend writes. It keeps nothing and takes no names. -/
def sheet (config : Config) : Sheet String Unit where
  value _ d := Rules.rust.typeName d.name
  body read _ d := match d.entity with
    | .aliasOf target => [aliasLine read d target]
    | .struct members => structLines read d members
    | .enum variants => enumLines (read (.atom config.discriminant.val)) d variants
    | .function .. | .foreign _ => []
  keep _ _ own := own
  claims _ := []
  held _ := []
  opening _ := []
  closing _ := []

theorem memberLine_congr {read read' : TypeRef → String} (member : Field)
    (h : read member.type = read' member.type) :
    memberLine read member = memberLine read' member := by
  rw [memberLine, memberLine, h]

/-! ## Emissions -/

section

variable {config : Config} {i : Interface} {d : Decl} {s t : Session String Unit}

theorem yields_resolve {type : TypeRef} {name : String} :
    Yields (resolve i type) s name t ↔
      s.defined.Knows type ∧ name = s.defined.reading AtomTable.rust.token type ∧ t = s :=
  HostDecl.yields_resolve

theorem yields_defineName {name : String} :
    Yields (defineName d) s name t ↔
      d.id ∉ s.defined.idents ∧ name = Rules.rust.typeName d.name ∧
        t = s.register (s.defined.extend d.id (Rules.rust.typeName d.name) d.name) := by
  simp only [defineName, yields_bind, yields_define, yields_pure, exists_const]
  constructor
  · rintro ⟨_, ⟨hfresh, rfl⟩, rfl, rfl⟩
    exact ⟨hfresh, rfl, rfl⟩
  · rintro ⟨hfresh, rfl, rfl⟩
    exact ⟨_, ⟨hfresh, rfl⟩, rfl, rfl⟩

/-- A member is written whether or not it is reported. -/
theorem yields_emitMember {r : Registry String} (member : Field) (hs : s.defined = r) :
    ((∃ t, Yields (emitMember i d member) s () t) ↔ r.Knows member.type) ∧
      ∀ t, Yields (emitMember i d member) s () t →
        (s.print [memberLine (r.reading AtomTable.rust.token) member]).Alike t := by
  obtain ⟨u, hu, halike⟩ := yields_checkWidening .rust member.type
    { declaration := d.name, member := some member.name } s
  have hiff : ∀ t, Yields (emitMember i d member) s () t ↔ r.Knows member.type ∧
      t = u.print [memberLine (r.reading AtomTable.rust.token) member] := by
    intro t
    simp only [emitMember, yields_bind, yields_resolve, yields_line, and_assoc, exists_and_left,
      exists_eq_left]
    constructor
    · rintro ⟨_, u', hu', hknown, rfl⟩
      obtain ⟨-, rfl⟩ := hu'.unique hu
      rw [halike.defined, hs] at hknown ⊢
      exact ⟨hknown, rfl⟩
    · rintro ⟨hknown, rfl⟩
      refine ⟨(), u, hu, ?_⟩
      rw [halike.defined, hs]
      exact ⟨hknown, rfl⟩
  constructor
  · exact ⟨fun ⟨t, ht⟩ => ((hiff t).mp ht).1, fun hknown => ⟨_, (hiff _).mpr ⟨hknown, rfl⟩⟩⟩
  · intro t ht
    obtain ⟨-, rfl⟩ := (hiff t).mp ht
    exact halike.print _

theorem yields_members {r : Registry String} (members : List Field) (hs : s.defined = r) :
    ((∃ t, Yields (members.forM (emitMember i d)) s () t) ↔
        ∀ member ∈ members, r.Knows member.type) ∧
      ∀ t, Yields (members.forM (emitMember i d)) s () t →
        (s.print (members.map (memberLine (r.reading AtomTable.rust.token)))).Alike t := by
  induction members generalizing s with
  | nil =>
      simp only [yields_forM_nil]
      exact ⟨by simp, fun t ht => ht ▸ .refl s⟩
  | cons member members ih =>
      obtain ⟨hhead, hheadAlike⟩ := yields_emitMember (i := i) (d := d) member hs
      simp only [yields_forM_cons]
      constructor
      · constructor
        · rintro ⟨t, u, hu, ht⟩
          have hu' := hheadAlike u hu
          refine List.forall_mem_cons.mpr ⟨hhead.mp ⟨u, hu⟩, ?_⟩
          exact (ih (hu'.defined.trans hs)).1.mp ⟨t, ht⟩
        · intro hall
          obtain ⟨hknown, hall⟩ := List.forall_mem_cons.mp hall
          obtain ⟨u, hu⟩ := hhead.mpr hknown
          obtain ⟨t, ht⟩ := (ih ((hheadAlike u hu).defined.trans hs)).1.mpr hall
          exact ⟨t, u, hu, ht⟩
      · rintro t ⟨u, hu, ht⟩
        have hu' := hheadAlike u hu
        have ht' := (ih (hu'.defined.trans hs)).2 t ht
        have hprint := hu'.print (members.map (memberLine (r.reading AtomTable.rust.token)))
        rw [Session.print_print] at hprint
        exact hprint.trans ht'

theorem yields_emitAlias {target : TypeRef} :
    ((∃ t, Yields (emitAlias i d target) s () t) ↔
      s.defined.Knows target ∧ d.id ∉ s.defined.idents) ∧
    ∀ t, Yields (emitAlias i d target) s () t →
      (((s.register (s.defined.extend d.id (Rules.rust.typeName d.name) d.name)).print
        [aliasLine (s.defined.reading AtomTable.rust.token) d target]).rest).Alike t := by
  obtain ⟨u, hu, halike⟩ := yields_checkWidening .rust target { declaration := d.name } s
  have hiff : ∀ t, Yields (emitAlias i d target) s () t ↔
      (s.defined.Knows target ∧ d.id ∉ s.defined.idents) ∧
      t = ((u.register (s.defined.extend d.id (Rules.rust.typeName d.name) d.name)).print
        [aliasLine (s.defined.reading AtomTable.rust.token) d target]).rest := by
    intro t
    simp only [emitAlias, yields_bind, yields_resolve, yields_defineName, yields_line,
      yields_endBlock, and_assoc, exists_and_left, exists_eq_left, exists_const]
    constructor
    · rintro ⟨hknown, _, u', hu', hfresh, rfl⟩
      obtain ⟨-, rfl⟩ := hu'.unique hu
      rw [halike.defined] at hfresh ⊢
      exact ⟨hknown, hfresh, rfl⟩
    · rintro ⟨hknown, hfresh, rfl⟩
      refine ⟨hknown, (), u, hu, ?_⟩
      rw [halike.defined]
      exact ⟨hfresh, rfl⟩
  constructor
  · exact ⟨fun ⟨t, ht⟩ => ((hiff t).mp ht).1, fun hcan => ⟨_, (hiff _).mpr ⟨hcan, rfl⟩⟩⟩
  · intro t ht
    obtain ⟨-, rfl⟩ := (hiff t).mp ht
    exact ((halike.register _).print _).rest

theorem yields_emitStruct {members : List Field} {r : Registry String}
    (h : s.Trusted (Host.rust.abi config) i)
    (hr : r = s.defined.extend d.id (Rules.rust.typeName d.name) d.name) :
    ((∃ t, Yields (emitStruct config i d members) s () t) ↔
      d.id ∉ s.defined.idents ∧ (∃ layout, i.LaidOut (Host.rust.abi config) (.decl d.id) layout) ∧
        ∀ member ∈ members, r.Knows member.type) ∧
    ∀ t, Yields (emitStruct config i d members) s () t →
      ((((s.register r).measured (Host.rust.abi config) i d.id).print
        (structLines (r.reading AtomTable.rust.token) d members)).rest).Alike t := by
  -- the session in front of the members
  let u : Session String Unit := ((s.register r).measured (Host.rust.abi config) i d.id).print
    [{ text := "#[repr(C)]" }, { text := "pub struct " ++ Rules.rust.typeName d.name ++ " \x7b" }]
  obtain ⟨hmembers, halike⟩ := yields_members (i := i) (d := d) (s := u) (r := r) members rfl
  have hiff : ∀ t, Yields (emitStruct config i d members) s () t ↔
      (d.id ∉ s.defined.idents ∧ ∃ layout, i.LaidOut (Host.rust.abi config) (.decl d.id) layout) ∧
      ∃ v, Yields (members.forM (emitMember i d)) u () v ∧
        t = (v.print [{ text := "\x7d" }]).rest := by
    intro t
    simp only [emitStruct, Emission.block, yields_bind, yields_defineName, yields_line,
      yields_endBlock, and_assoc, exists_and_left, exists_eq_left, exists_const]
    subst hr
    constructor
    · rintro ⟨hfresh, layout, _, hl, _, ⟨_, v, hv, rfl⟩, rfl⟩
      obtain ⟨hlaid, rfl⟩ := (yields_layoutOf (h.register _)).mp hl
      exact ⟨hfresh, ⟨layout, hlaid⟩, v, hv, rfl⟩
    · rintro ⟨hfresh, ⟨layout, hlaid⟩, v, hv, rfl⟩
      exact ⟨hfresh, layout, _, (yields_layoutOf (h.register _)).mpr ⟨hlaid, rfl⟩, _,
        ⟨(), v, hv, rfl⟩, rfl⟩
  constructor
  · constructor
    · rintro ⟨t, ht⟩
      obtain ⟨⟨hfresh, hlaid⟩, v, hv, -⟩ := (hiff t).mp ht
      exact ⟨hfresh, hlaid, hmembers.mp ⟨v, hv⟩⟩
    · rintro ⟨hfresh, hlaid, hknown⟩
      obtain ⟨v, hv⟩ := hmembers.mpr hknown
      exact ⟨_, (hiff _).mpr ⟨⟨hfresh, hlaid⟩, v, hv, rfl⟩⟩
  · intro t ht
    obtain ⟨-, v, hv, rfl⟩ := (hiff t).mp ht
    have hfinal := ((halike v hv).print [{ text := "\x7d" }]).rest
    rw [Session.print_print, Session.print_print] at hfinal
    exact hfinal

theorem yields_emitEnum {variants : List String} :
    ((∃ t, Yields (emitEnum config i d variants) s () t) ↔ d.id ∉ s.defined.idents) ∧
    ∀ t, Yields (emitEnum config i d variants) s () t →
      (((s.register (s.defined.extend d.id (Rules.rust.typeName d.name) d.name)).print
        (enumLines (AtomTable.rust.token config.discriminant.val) d variants)).rest).Alike t := by
  obtain ⟨u, hu, halike⟩ := yields_checkWidening .rust (.atom config.discriminant.val)
    { declaration := d.name }
    (s.register (s.defined.extend d.id (Rules.rust.typeName d.name) d.name))
  have hvariants : ∀ v v' : Session String Unit, Yields (variants.forM emitVariant) v () v' ↔
      v' = v.print (variants.map variantLine) :=
    fun v v' => yields_forM_lines (fun _ _ _ => yields_line) _
  have hiff : ∀ t, Yields (emitEnum config i d variants) s () t ↔ d.id ∉ s.defined.idents ∧
      t = (u.print (enumLines (AtomTable.rust.token config.discriminant.val) d variants)).rest := by
    intro t
    simp only [emitEnum, Emission.block, yields_bind, yields_defineName, yields_resolve,
      yields_line, yields_endBlock, and_assoc, exists_and_left, exists_eq_left, exists_const,
      Registry.Knows, true_and]
    constructor
    · rintro ⟨hfresh, _, u', hu', _, ⟨_, v, hv, rfl⟩, rfl⟩
      obtain ⟨-, rfl⟩ := hu'.unique hu
      obtain rfl := (hvariants _ _).mp hv
      simp only [Session.print_print]
      exact ⟨hfresh, rfl⟩
    · rintro ⟨hfresh, rfl⟩
      refine ⟨hfresh, (), u, hu, _, ⟨(), _, (hvariants _ _).mpr rfl, rfl⟩, ?_⟩
      simp only [Session.print_print]
      rfl
  constructor
  · constructor
    · rintro ⟨t, ht⟩
      exact ((hiff t).mp ht).1
    · intro hcan
      exact ⟨_, (hiff _).mpr ⟨hcan, rfl⟩⟩
  · intro t ht
    obtain ⟨-, rfl⟩ := (hiff t).mp ht
    exact (halike.print _).rest

/-! ## Declarations one by one -/

theorem acts_alias {target : TypeRef} (h : s.Trusted (Host.rust.abi config) i)
    (he : d.entity = .aliasOf target) : (sheet config).Acts (backend config) i d s := by
  have hemit : (backend config).emitDecl i d = emitAlias i d target := Backend.emitDecl_alias he
  obtain ⟨hsucceeds, halike⟩ := @yields_emitAlias i d s target
  rw [Sheet.acts_iff, hemit, hsucceeds]
  constructor
  · intro t ht
    obtain ⟨hknown, hfresh⟩ := hsucceeds.mp ⟨t, ht⟩
    refine ⟨.of_isType (by simp [he, Entity.isType]) (by simp [he]) hfresh
      (by simpa [he, Entity.parts] using hknown) (by simp [he]) (by simp [sheet])
      (by simp [sheet]), .of_alike ?_ (halike t ht)⟩
    exact ⟨by simp [sheet, he]; rfl, by simp [sheet, he, Entity.isType], rfl, h⟩
  · intro hr
    exact ⟨Entity.forall_target he hr.known,
      hr.fresh (by simp [he, Entity.isType])⟩

theorem acts_struct {members : List Field} (h : s.Trusted (Host.rust.abi config) i)
    (hd : i.get? d.id = some d) (he : d.entity = .struct members) :
    (sheet config).Acts (backend config) i d s := by
  have hemit : (backend config).emitDecl i d = emitStruct config i d members :=
    Backend.emitDecl_struct he
  obtain ⟨hsucceeds, halike⟩ := @yields_emitStruct config i d s members _ h rfl
  rw [Sheet.acts_iff, hemit, hsucceeds]
  constructor
  · intro t ht
    obtain ⟨hfresh, ⟨layout, hlaid⟩, hknown⟩ := hsucceeds.mp ⟨t, ht⟩
    have hold : ∀ member ∈ members, s.defined.Knows member.type := fun member hmember =>
      (Registry.knows_extend.mp (hknown member hmember)).resolve_right
        (hlaid.member_ne_self hd he hmember)
    refine ⟨.of_isType (by simp [he, Entity.isType]) (by simp [he]) hfresh
      (by simpa [he, Entity.parts] using hold) (fun _ _ => ⟨layout, hlaid⟩) (by simp [sheet])
      (by simp [sheet]), .of_alike ?_ (halike t ht)⟩
    rw [structLines, map_congr_of_read memberLine_congr fun member hmember =>
      Registry.reading_extend (hold member hmember) _ _ _]
    exact ⟨by simp [sheet, he]; rfl, by simp [sheet, he, Entity.isType], rfl,
      (h.register _).measured d.id⟩
  · intro hr
    refine ⟨hr.fresh (by simp [he, Entity.isType]), hr.laidOut members he,
      fun member hmember => ?_⟩
    exact Registry.knows_extend.mpr (.inl (Entity.forall_members he hr.known member hmember))

theorem acts_enum {variants : List String} (h : s.Trusted (Host.rust.abi config) i)
    (he : d.entity = .enum variants) (hne : variants ≠ []) :
    (sheet config).Acts (backend config) i d s := by
  have hemit : (backend config).emitDecl i d = emitEnum config i d variants :=
    Backend.emitDecl_enum he hne
  obtain ⟨hsucceeds, halike⟩ := @yields_emitEnum config i d s variants
  rw [Sheet.acts_iff, hemit, hsucceeds]
  constructor
  · intro t ht
    have hfresh := hsucceeds.mp ⟨t, ht⟩
    refine ⟨.of_isType (by simp [he, Entity.isType]) (by simp [he, hne]) hfresh
      (by simp [he, Entity.parts]) (by simp [he]) (by simp [sheet]) (by simp [sheet]),
      .of_alike ?_ (halike t ht)⟩
    exact ⟨by simp [sheet, he]; rfl, by simp [sheet, he, Entity.isType], rfl, h⟩
  · intro hr
    exact hr.fresh (by simp [he, Entity.isType])

/-! ## The sheet is right -/

theorem body_congr {read read' : TypeRef → String} {layout : Layout}
    (h : ReadAlike d.entity.uses read read') :
    (sheet config).body read layout d = (sheet config).body read' layout d := by
  dsimp only [sheet]
  cases he : d.entity with
  | aliasOf target =>
      dsimp only
      rw [aliasLine, aliasLine, Entity.forall_target he h.refs]
  | struct members =>
      dsimp only
      rw [structLines, structLines,
        map_congr_of_read memberLine_congr (Entity.forall_members he h.refs)]
  | enum variants =>
      dsimp only
      rw [h.atoms]
  | function args result => rfl
  | foreign text => rfl

theorem body_inked (read : TypeRef → String) (layout : Layout)
    (hcover : (backend config).Covers d) : Inked ((sheet config).body read layout d) := by
  dsimp only [sheet]
  cases he : d.entity with
  | aliasOf target =>
      refine ⟨by simp, List.forall_mem_singleton.mpr ?_⟩
      exact visible_append_right _ (by decide)
  | struct members =>
      refine ⟨by simp [structLines], fun line hline => ?_⟩
      simp only [structLines, List.mem_append, List.mem_map, List.mem_cons, List.not_mem_nil,
        or_false] at hline
      rcases hline with ((rfl | rfl) | ⟨member, -, rfl⟩) | rfl
      case struct.inl.inl.inl => decide
      case struct.inr => decide
      all_goals
        refine visible_append_right _ ?_
        decide
  | enum variants =>
      refine ⟨by simp [enumLines], fun line hline => ?_⟩
      simp only [enumLines, List.mem_append, List.mem_map, List.mem_cons, List.not_mem_nil,
        or_false] at hline
      rcases hline with ((rfl | rfl | rfl) | ⟨variant, -, rfl⟩) | rfl
      case enum.inl.inl.inr.inl => decide
      case enum.inr => decide
      all_goals
        refine visible_append_right _ ?_
        decide
  | function args result =>
      simp [Backend.Covers, he, Entity.isType, backend, Host.emitsFunctions] at hcover
  | foreign text => simp [Backend.Covers, he, Entity.isType, Entity.isFunction] at hcover

end

theorem describes (config : Config) : (sheet config).Describes (backend config) where
  acts := by
    intro i d s h hd hcover hne
    cases he : d.entity with
    | aliasOf target => exact acts_alias h he
    | struct members => exact acts_struct h hd he
    | enum variants => exact acts_enum h he fun hnil => hne (by rw [he, hnil])
    | function args result =>
        simp [Backend.Covers, he, Entity.isType, backend, Host.emitsFunctions] at hcover
    | foreign text => simp [Backend.Covers, he, Entity.isType, Entity.isFunction] at hcover
  preamble := yields_pure.trans (by simp [sheet, Session.printBlocks])
  ending _ := yields_pure.trans (by simp [sheet])
  value_congr _ := rfl
  body_congr := body_congr
  keep_congr _ := rfl
  held_keep := by simp [sheet]
  claims_of_not_emits _ := rfl
  body_inked := body_inked
  opening_inked := by simp [sheet]
  closing_visible := by simp [sheet]
  comment_visible := by
    show visible "///" = true
    decide

end Rust

end HostDecl
