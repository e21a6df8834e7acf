import HostDecl.Proofs.Session.Sheet

/-!
# Whole runs

After some declarations of an interface, `Sheet.After` says everything about the session that later
declarations depend on, and what has been written. One declaration preserves it (`After.entry`), so
a whole run ends in it (`Describes.finished`), and a declaration is ready in it exactly if it
stands right in the interface (`After.ready_iff`). Together they say when a run succeeds
(`Describes.run_succeeds_iff`), whatever the host.
-/

namespace HostDecl

variable {V S : Type}

namespace Backend

/-- The references that have to be resolved for a declaration. -/
def refs (b : Backend V S) (e : Entity) : List TypeRef :=
  if b.host.emitsFunctions then e.uses else e.parts

variable {b : Backend V S} {i : Interface} {skipUnsupported : Bool} {d : Decl}

theorem refs_of_emits (h : b.emits d = true) : b.refs d.entity = d.entity.uses := by
  unfold refs
  split
  · rfl
  · rename_i hb
    have hf : d.entity.isFunction = false := by simpa [emits, hb] using h
    rw [Entity.uses, Entity.signature_eq_nil hf, List.append_nil]

theorem refs_of_not_emits (h : b.emits d = false) : b.refs d.entity = [] := by
  obtain ⟨hb, hf⟩ : b.host.emitsFunctions = false ∧ d.entity.isFunction = true := by
    simpa [emits] using h
  simp [refs, hb, Entity.parts_eq_nil hf]

/-! ## Functions -/

/-- Warnings, one for each element, change nothing but the reports. -/
theorem yields_forM_warn {α : Type} (warning : α → Warning) (location : α → Location)
    (xs : List α) (s : Session V S) :
    ∃ t, Yields (xs.forM fun x => (Emission.warn (warning x) (location x) : Emission V S Unit))
      s () t ∧ s.Alike t := by
  induction xs generalizing s with
  | nil => exact ⟨s, yields_forM_nil.mpr rfl, .refl s⟩
  | cons x xs ih =>
      let r : Session V S := { s with reporter := s.reporter.warn (warning x) (location x) }
      obtain ⟨t, ht, halike⟩ := ih r
      have hr : s.Alike r := ⟨rfl, rfl, rfl, rfl⟩
      exact ⟨t, yields_forM_cons.mpr ⟨r, yields_warn.mpr rfl, ht⟩, hr.trans halike⟩

/-- The functions of an interface are admitted if the host has functions, or there are none, or
they are to be skipped; at most warnings come of it. -/
theorem yields_admitFunctions (b : Backend V S) (i : Interface) (skipUnsupported : Bool)
    (s : Session V S) :
    ((∃ functions t, Yields (b.admitFunctions i skipUnsupported) s functions t) ↔
      b.host.emitsFunctions = true ∨ i.functions = [] ∨ skipUnsupported = true) ∧
    ∀ functions t, Yields (b.admitFunctions i skipUnsupported) s functions t →
      s.Alike t ∧ (functions = b.host.emitsFunctions ∨ i.functions = []) := by
  unfold admitFunctions
  cases hf : i.functions with
  | nil =>
      refine ⟨⟨fun _ => .inr (.inl rfl), fun _ => ⟨true, s, yields_pure.mpr ⟨rfl, rfl⟩⟩⟩, ?_⟩
      intro functions t h
      obtain ⟨-, rfl⟩ := yields_pure.mp h
      exact ⟨.refl _, .inr rfl⟩
  | cons first rest =>
      dsimp only
      split
      · rename_i hb
        refine ⟨⟨fun _ => .inl hb, fun _ => ⟨true, s, yields_pure.mpr ⟨rfl, rfl⟩⟩⟩, ?_⟩
        intro functions t h
        obtain ⟨rfl, rfl⟩ := yields_pure.mp h
        exact ⟨.refl _, .inl hb.symm⟩
      · rename_i hb
        split
        · rename_i hskip
          simp only [yields_bind, yields_pure]
          have hwarn := yields_forM_warn (V := V) (S := S)
            (fun d => .functionSkipped d.name b.host.name)
            (fun d => { declaration := d.name }) (first :: rest)
          refine ⟨⟨fun _ => .inr (.inr hskip), fun _ => ?_⟩, ?_⟩
          · obtain ⟨t, ht, -⟩ := hwarn s
            exact ⟨false, t, (), t, ht, rfl, rfl⟩
          · rintro functions t ⟨_, _, h, rfl, rfl⟩
            obtain ⟨t', ht', halike⟩ := hwarn s
            obtain ⟨-, rfl⟩ := h.unique ht'
            exact ⟨halike, .inl (by simpa using hb)⟩
        · rename_i hskip
          constructor
          · constructor
            · rintro ⟨functions, t, h⟩
              exact (yields_throw.mp h).elim
            · simp [hb, hskip]
          · intro functions t h
            exact (yields_throw.mp h).elim

/-- In a run, a declaration that is not emitted is passed over. -/
theorem emitEntry_eq {functions : Bool}
    (h : functions = b.host.emitsFunctions ∨ i.functions = []) (hd : d ∈ i.decls) :
    b.emitEntry i functions d = if b.emits d then b.emitPiece i d else pure () := by
  unfold emitEntry emitPiece emits
  cases hf : d.entity.isFunction with
  | false => simp
  | true =>
      have hmem : d ∈ i.functions := List.mem_filter.mpr ⟨hd, hf⟩
      rcases h with rfl | h
      · simp
      · rw [h] at hmem
        cases hmem

end Backend

namespace Sheet

variable {sh : Sheet V S} {b : Backend V S} {i : Interface} {before s t : Session V S}
  {done todo : List Decl} {d : Decl}

/-! ## After some declarations -/

/-- The session has emitted the declarations, from the session `before` on. What references read
as is told by the registry at the end: entries are never changed. -/
structure After (sh : Sheet V S) (b : Backend V S) (i : Interface) (before : Session V S)
    (done : List Decl) (s : Session V S) : Prop where
  idents : s.defined.idents = (done.filter fun d => d.entity.isType).map Decl.id
  trusted : s.Trusted b.abi i
  laidOut : ∀ d ∈ done, d.entity.isType = true → ∃ layout, i.LaidOut b.abi (.decl d.id) layout
  nodup : (done.flatMap sh.claims).Nodup
  held : ∀ c, c ∈ sh.held s.own ↔ c ∈ sh.held before.own ∨ c ∈ done.flatMap sh.claims
  covered : ∀ d ∈ done.filter b.emits, b.Covers d
  known : ∀ d ∈ done.filter b.emits, ∀ type ∈ d.entity.uses, s.defined.Knows type
  value : ∀ d ∈ done, d.entity.isType = true →
    s.defined.get? d.id = some (sh.value (s.defined.reading b.atomType) d)
  own : s.own = (done.filter b.emits).foldl
    (fun own d => sh.keep (s.defined.reading b.atomType) d own) before.own
  page : s.page =
    { text := before.page.text ++ String.join ((done.filter b.emits).map fun d =>
        blockText (sh.piece b i d (s.defined.reading b.atomType)))
      atBreak := true }

theorem After.nil (hbreak : before.page.atBreak = true) (hidents : before.defined.idents = [])
    (htrust : before.Trusted b.abi i) : sh.After b i before [] before where
  idents := by simpa using hidents
  trusted := htrust
  laidOut := by simp
  nodup := by simp
  held := by simp
  covered := by simp
  known := by simp
  value := by simp
  own := rfl
  page := by
    rcases before with ⟨⟨text, atBreak⟩, _, _, _, _, _⟩
    obtain rfl : atBreak = true := hbreak
    simp

/-- Reference by reference, the registry knows what has been declared. -/
theorem After.knows_iff (h : sh.After b i before done s) (type : TypeRef) :
    s.defined.Knows type ↔ type.DeclaredIn done := by
  cases type with
  | atom a => rfl
  | decl id =>
      simp only [Registry.Knows, TypeRef.DeclaredIn, h.idents, List.mem_map, List.mem_filter]
      constructor
      · rintro ⟨d, ⟨hd, ht⟩, hid⟩
        exact ⟨d, hd, hid, ht⟩
      · rintro ⟨d, hd, hid, ht⟩
        exact ⟨d, ⟨hd, ht⟩, hid⟩
  | foreign text => rfl

/-! ## One more declaration -/

theorem Result.knows (h : sh.Result b i d s t) {type : TypeRef} (hk : s.defined.Knows type) :
    t.defined.Knows type := by
  rw [h.defined]
  split
  · exact Registry.knows_extend.mpr (.inl hk)
  · exact hk

theorem Result.reading (h : sh.Result b i d s t) {type : TypeRef} (hk : s.defined.Knows type) :
    t.defined.reading b.atomType type = s.defined.reading b.atomType type := by
  rw [h.defined]
  split
  · exact Registry.reading_extend hk _ _ _
  · rfl

theorem Result.readAlike (h : sh.Result b i d s t) {refs : List TypeRef}
    (hk : ∀ type ∈ refs, s.defined.Knows type) :
    ReadAlike refs (s.defined.reading b.atomType) (t.defined.reading b.atomType) where
  atoms _ := rfl
  refs type htype := (h.reading (hk type htype)).symm

theorem Result.get? (h : sh.Result b i d s t) {id : Ident} {value : V}
    (hid : s.defined.get? id = some value) : t.defined.get? id = some value := by
  rw [h.defined]
  split
  · rw [Registry.get?_extend, hid, Option.some_or]
  · exact hid

/-- A declaration that was ready and has been emitted is one of those that have been emitted. -/
theorem After.emitted (hsh : sh.Describes b) (h : sh.After b i before done s)
    (hlaid : d.entity.isType = true → ∃ layout, i.LaidOut b.abi (.decl d.id) layout)
    (hr : sh.Ready b i d s) (ht : sh.Result b i d (s.print (b.header i d)) t) :
    sh.After b i before (done ++ [d]) t := by
  have hemits := hr.covered.emits
  have hfilter : (done ++ [d]).filter b.emits = done.filter b.emits ++ [d] := by
    simp [List.filter_append, hemits]
  -- What the declarations refer to reads as it did before the new one was defined.
  have hread : ∀ d' ∈ done.filter b.emits ++ [d], ReadAlike d'.entity.uses
      (s.defined.reading b.atomType) (t.defined.reading b.atomType) :=
    List.forall_mem_append.mpr ⟨fun d' hd' => ht.readAlike (h.known d' hd'),
      List.forall_mem_singleton.mpr (ht.readAlike hr.known)⟩
  constructor
  case idents =>
    rw [ht.defined, List.filter_append, List.map_append, ← h.idents]
    split <;> rename_i htype <;> simp [htype]
  case trusted => exact ht.trusted
  case laidOut => exact List.forall_mem_append.mpr ⟨h.laidOut, List.forall_mem_singleton.mpr hlaid⟩
  case nodup =>
    rw [List.flatMap_append, List.nodup_append']
    refine ⟨h.nodup, by simpa using hr.nodup, fun c hc hc' => ?_⟩
    exact hr.unclaimed c (by simpa using hc') ((h.held c).mpr (.inr hc))
  case held =>
    intro c
    rw [ht.own, hsh.held_keep, Session.print_own, h.held, List.flatMap_append, List.mem_append]
    simp only [List.flatMap_cons, List.flatMap_nil, List.append_nil]
    tauto
  case covered =>
    rw [hfilter]
    exact List.forall_mem_append.mpr ⟨h.covered, List.forall_mem_singleton.mpr hr.covered⟩
  case known =>
    rw [hfilter]
    exact List.forall_mem_append.mpr ⟨fun d' hd' type htype => ht.knows (h.known d' hd' type htype),
      List.forall_mem_singleton.mpr fun type htype => ht.knows (hr.known type htype)⟩
  case value =>
    refine List.forall_mem_append.mpr ⟨fun d' hd' htype => ?_,
      List.forall_mem_singleton.mpr fun htype => ?_⟩
    · have hmem : d' ∈ done.filter b.emits := List.mem_filter.mpr ⟨hd', by
        simp [Backend.emits, Entity.isFunction_eq_false_of_isType htype]⟩
      rw [← hsh.value_congr (hread d' (List.mem_append_left _ hmem))]
      exact ht.get? (h.value d' hd' htype)
    · rw [← hsh.value_congr (hread d List.mem_concat_self), ht.defined, if_pos htype,
        Session.print_defined, Registry.get?_extend,
        (Registry.get?_eq_none_iff _ _).mpr (hr.fresh htype)]
      simp
  case own =>
    have hown : t.own = (done.filter b.emits ++ [d]).foldl
        (fun own d' => sh.keep (s.defined.reading b.atomType) d' own) before.own := by
      rw [ht.own, Session.print_own, Session.print_defined, h.own, List.foldl_append]
      rfl
    rw [hown, hfilter]
    exact List.foldl_ext _ _ _ fun own d' hd' => hsh.keep_congr (hread d' hd')
  case page =>
    have hlines : ∀ d' ∈ done.filter b.emits ++ [d],
        sh.piece b i d' (t.defined.reading b.atomType) =
          sh.piece b i d' (s.defined.reading b.atomType) := by
      intro d' hd'
      rw [piece, piece, hsh.body_congr (hread d' hd')]
    have hpiece : t.page =
        (s.page.print (sh.piece b i d (s.defined.reading b.atomType))).endBlock {} := by
      rw [ht.page, Session.print_page, ← Page.print_append]
      rfl
    rw [hpiece, (hsh.piece_inked hr.covered _).endBlock_print, h.page, hfilter]
    rw [List.map_congr_left fun d' hd' => congrArg blockText (hlines d' hd')]
    simp [String.append_assoc]

/-- The session passes over a declaration that it does not emit. -/
theorem After.passed (hsh : sh.Describes b) (h : sh.After b i before done s)
    (hd : b.emits d = false) : sh.After b i before (done ++ [d]) s := by
  have htype : d.entity.isType = false := by
    cases ht : d.entity.isType with
    | false => rfl
    | true => simp [Backend.emits, Entity.isFunction_eq_false_of_isType ht] at hd
  have hclaims : (done ++ [d]).flatMap sh.claims = done.flatMap sh.claims := by
    simp [hsh.claims_of_not_emits hd]
  have hfilter : (done ++ [d]).filter b.emits = done.filter b.emits := by
    simp [List.filter_append, hd]
  have hmem : ∀ d' ∈ done ++ [d], d'.entity.isType = true → d' ∈ done := by
    intro d' hd' ht
    rcases List.mem_append.mp hd' with hd' | hd'
    · exact hd'
    · obtain rfl := List.mem_singleton.mp hd'
      rw [htype] at ht
      cases ht
  exact {
    idents := by simpa [List.filter_append, htype] using h.idents
    trusted := h.trusted
    laidOut := fun d' hd' ht => h.laidOut d' (hmem d' hd' ht) ht
    nodup := by rw [hclaims]; exact h.nodup
    held := by rw [hclaims]; exact h.held
    covered := by rw [hfilter]; exact h.covered
    known := by rw [hfilter]; exact h.known
    value := fun d' hd' ht => h.value d' (hmem d' hd' ht) ht
    own := by rw [hfilter]; exact h.own
    page := by rw [hfilter]; exact h.page }

/-! ## When a declaration can follow others -/

/-- The declaration can be emitted after the others, if it is to be emitted at all. -/
structure Fits (sh : Sheet V S) (b : Backend V S) (before : Session V S) (done : List Decl)
    (d : Decl) : Prop where
  native : ∀ text, d.entity ≠ .foreign text
  inhabited : d.entity ≠ .enum []
  ordered : ∀ type ∈ b.refs d.entity, type.DeclaredIn done
  nodup : ((done ++ [d]).flatMap sh.claims).Nodup
  unclaimed : ∀ c ∈ sh.claims d, c ∉ sh.held before.own

theorem fits_of_not_emits (hsh : sh.Describes b) (h : sh.After b i before done s)
    (hd : b.emits d = false) : sh.Fits b before done d := by
  have hf : d.entity.isFunction = true := by
    simp only [Backend.emits, Bool.or_eq_false_iff] at hd
    simpa using hd.2
  have hclaims := hsh.claims_of_not_emits hd
  refine ⟨?_, ?_, ?_, ?_, ?_⟩
  · intro text he
    simp [he, Entity.isFunction] at hf
  · intro he
    simp [he, Entity.isFunction] at hf
  · simp [Backend.refs_of_not_emits hd]
  · simpa [hclaims] using h.nodup
  · simp [hclaims]

/-- The next declaration has not been defined, as no two carry the same ident. -/
theorem After.fresh (h : sh.After b i before done s) (hi : i.Distinct)
    (hsplit : i.decls = done ++ d :: todo) : d.id ∉ s.defined.idents := by
  intro hmem
  rw [h.idents] at hmem
  obtain ⟨d', hd', hid⟩ := List.mem_map.mp hmem
  rw [Interface.Distinct, hsplit, List.map_append, List.nodup_append'] at hi
  exact hi.2.2 (List.mem_map.mpr ⟨d', (List.mem_filter.mp hd').1, hid⟩) (by simp)

/-- After the declarations that stand before it, a declaration is ready exactly if it fits. -/
theorem After.ready_iff (h : sh.After b i before done s) (hi : i.Distinct)
    (hsplit : i.decls = done ++ d :: todo) (hd : b.emits d = true) :
    sh.Ready b i d s ↔ sh.Fits b before done d := by
  have hget : i.get? d.id = some d := Interface.get?_of_mem hi (by simp [hsplit])
  have hrefs := Backend.refs_of_emits hd
  have hnodup : ((done ++ [d]).flatMap sh.claims).Nodup ↔
      (sh.claims d).Nodup ∧ ∀ c ∈ sh.claims d, c ∉ done.flatMap sh.claims := by
    rw [List.flatMap_append, List.nodup_append', List.flatMap_cons, List.flatMap_nil,
      List.append_nil]
    exact ⟨fun ⟨_, hn, hdisj⟩ => ⟨hn, fun c hc hc' => hdisj hc' hc⟩,
      fun ⟨hn, hnot⟩ => ⟨h.nodup, hn, fun c hc hc' => hnot c hc' hc⟩⟩
  constructor
  · intro hr
    refine ⟨(Backend.covers_iff hd).mp hr.covered, hr.inhabited, ?_, ?_, ?_⟩
    · rw [hrefs]
      exact fun type htype => (h.knows_iff type).mp (hr.known type htype)
    · exact hnodup.mpr ⟨hr.nodup, fun c hc hc' => hr.unclaimed c hc ((h.held c).mpr (.inr hc'))⟩
    · exact fun c hc hc' => hr.unclaimed c hc ((h.held c).mpr (.inl hc'))
  · intro hf
    have huses : ∀ type ∈ d.entity.uses, type.DeclaredIn done := by
      rw [← hrefs]
      exact hf.ordered
    obtain ⟨hn, hnot⟩ := hnodup.mp hf.nodup
    refine ⟨(Backend.covers_iff hd).mpr hf.native, hf.inhabited, ?_, ?_, ?_, hn, ?_⟩
    · exact fun _ => h.fresh hi hsplit
    · exact fun type htype => (h.knows_iff type).mpr (huses type htype)
    · intro members he
      refine Interface.exists_laidOut h.laidOut hget (by simp [he, Entity.isType]) ?_
      exact fun type htype => huses type (List.mem_append_left _ htype)
    · intro c hc hheld
      rcases (h.held c).mp hheld with hheld | hheld
      · exact hf.unclaimed c hc hheld
      · exact hnot c hc hheld

/-- Emitting the next declaration succeeds exactly if it fits, and then it has been emitted. -/
theorem After.entry (hsh : sh.Describes b) (h : sh.After b i before done s) (hi : i.Distinct)
    (hsplit : i.decls = done ++ d :: todo) {functions : Bool}
    (hfun : functions = b.host.emitsFunctions ∨ i.functions = []) :
    ((∃ t, Yields (b.emitEntry i functions d) s () t) ↔ sh.Fits b before done d) ∧
      ∀ t, Yields (b.emitEntry i functions d) s () t → sh.After b i before (done ++ [d]) t := by
  have hmem : d ∈ i.decls := by simp [hsplit]
  have hget := Interface.get?_of_mem hi hmem
  rw [Backend.emitEntry_eq hfun hmem]
  cases hd : b.emits d with
  | false =>
      rw [if_neg (by simp)]
      refine ⟨⟨fun _ => fits_of_not_emits hsh h hd, fun _ => ⟨s, yields_pure.mpr ⟨rfl, rfl⟩⟩⟩, ?_⟩
      intro t ht
      obtain ⟨-, rfl⟩ := yields_pure.mp ht
      exact h.passed hsh hd
  | true =>
      have hbreak : s.page.atBreak = true := by rw [h.page]
      obtain ⟨hready, hresult⟩ := hsh.yields_emitPiece hbreak h.trusted hget
      rw [if_pos rfl]
      refine ⟨hready.trans (h.ready_iff hi hsplit hd), fun t ht => ?_⟩
      have hr := hready.mp ⟨t, ht⟩
      refine h.emitted hsh ?_ hr (hresult t ht)
      intro htype
      refine Interface.exists_laidOut h.laidOut hget htype fun type hpart => ?_
      exact (h.knows_iff type).mp (hr.known type (List.mem_append_left _ hpart))

/-! ## Runs -/

/-- What stands in front of all declarations. -/
def prelude (sh : Sheet V S) (name : String) : String :=
  String.join ((sh.opening name).map blockText)

/-- What stands behind all declarations. -/
def epilogue (sh : Sheet V S) (name : String) : String :=
  linesText ((sh.closing name).map Line.shown)

/-- Every declaration of the interface fits where it stands. -/
structure Emittable (sh : Sheet V S) (b : Backend V S) (i : Interface) : Prop where
  native : ∀ d ∈ i.decls, ∀ text, d.entity ≠ .foreign text
  inhabited : ∀ d ∈ i.decls, d.entity ≠ .enum []
  ordered : i.Ordered b.refs
  nodup : (i.decls.flatMap sh.claims).Nodup
  unclaimed : ∀ c ∈ i.decls.flatMap sh.claims, c ∉ sh.held b.start

theorem emittable_iff (hstart : before.own = b.start) :
    sh.Emittable b i ↔ ∀ done d todo, i.decls = done ++ d :: todo → sh.Fits b before done d := by
  constructor
  · intro h done d todo hsplit
    have hmem : d ∈ i.decls := by simp [hsplit]
    refine ⟨h.native d hmem, h.inhabited d hmem, h.ordered done d todo hsplit, ?_, ?_⟩
    · have hn := h.nodup
      rw [hsplit, List.append_cons, List.flatMap_append] at hn
      exact hn.of_append_left
    · rw [hstart]
      exact fun c hc => h.unclaimed c (List.mem_flatMap.mpr ⟨d, hmem, hc⟩)
  · intro h
    have hfits : ∀ d ∈ i.decls, ∃ done, sh.Fits b before done d := by
      intro d hd
      obtain ⟨done, todo, hsplit⟩ := List.append_of_mem hd
      exact ⟨done, h done d todo hsplit⟩
    refine ⟨fun d hd => (hfits d hd).choose_spec.native,
      fun d hd => (hfits d hd).choose_spec.inhabited,
      fun done d todo hsplit => (h done d todo hsplit).ordered, ?_, ?_⟩
    · rcases List.eq_nil_or_concat' i.decls with hnil | ⟨front, last, hlast⟩
      · simp [hnil]
      · rw [hlast]
        exact (h front last [] hlast).nodup
    · intro c hc
      obtain ⟨d, hd, hc⟩ := List.mem_flatMap.mp hc
      rw [← hstart]
      exact (hfits d hd).choose_spec.unclaimed c hc

/-- A session that has emitted an interface. -/
structure Finished (sh : Sheet V S) (b : Backend V S) (i : Interface) (t : Session V S) :
    Prop where
  idents : t.defined.idents = (i.decls.filter fun d => d.entity.isType).map Decl.id
  laidOut : ∀ d ∈ i.decls, d.entity.isType = true →
    ∃ layout, i.LaidOut b.abi (.decl d.id) layout
  covered : ∀ d ∈ i.decls.filter b.emits, b.Covers d
  known : ∀ d ∈ i.decls.filter b.emits, ∀ type ∈ d.entity.uses, t.defined.Knows type
  value : ∀ d ∈ i.decls, d.entity.isType = true →
    t.defined.get? d.id = some (sh.value (t.defined.reading b.atomType) d)
  own : t.own = (i.decls.filter b.emits).foldl
    (fun own d => sh.keep (t.defined.reading b.atomType) d own) b.start
  text : t.page.text = sh.prelude i.name
    ++ String.join ((i.decls.filter b.emits).map fun d =>
        blockText (sh.piece b i d (t.defined.reading b.atomType)))
    ++ sh.epilogue i.name

/-- What a session knows has been declared by one of the types of its interface. -/
theorem Finished.declared (h : sh.Finished b i t) {id : Ident}
    (hid : t.defined.Knows (.decl id)) :
    ∃ d ∈ i.decls, d.id = id ∧ d.entity.isType = true := by
  rw [Registry.Knows, h.idents] at hid
  obtain ⟨d, hd, hid⟩ := List.mem_map.mp hid
  exact ⟨d, (List.mem_filter.mp hd).1, hid, (List.mem_filter.mp hd).2⟩

/-- A reference to a declared type reads as what the sheet says of it. -/
theorem Finished.reading_decl (h : sh.Finished b i t) (hd : d ∈ i.decls)
    (htype : d.entity.isType = true) :
    t.defined.reading b.atomType (.decl d.id) =
      sh.value (t.defined.reading b.atomType) d := by
  rw [Registry.reading, Registry.resolve, h.value d hd htype]

theorem After.finished (hsh : sh.Describes b) (h : sh.After b i before i.decls s)
    (hstart : before.own = b.start) (hopen : before.page.text = sh.prelude i.name) :
    sh.Finished b i (s.print (sh.closing i.name)) where
  idents := h.idents
  laidOut := h.laidOut
  covered := h.covered
  known := h.known
  value := h.value
  own := by rw [Session.print_own, Session.print_defined, h.own, hstart]
  text := by
    rw [Session.print_page, Session.print_defined, Page.print_text _ (hsh.closing_visible i.name),
      h.page, hopen, epilogue]

/-- The session of a run in front of the first declaration. -/
theorem Describes.opened (hsh : sh.Describes b) {reporter : Reporter} {r : Session V S}
    (hr : (b.newSession reporter).Alike r) :
    sh.After b i (r.printBlocks (sh.opening i.name)) [] (r.printBlocks (sh.opening i.name)) ∧
      (r.printBlocks (sh.opening i.name)).own = b.start ∧
      (r.printBlocks (sh.opening i.name)).page.text = sh.prelude i.name := by
  have hbreak : r.page.atBreak = true := by rw [hr.page]; rfl
  have hpage := Session.printBlocks_page hbreak (hsh.opening_inked i.name)
  refine ⟨.nil (by rw [hpage]) ?_ ?_, ?_, ?_⟩
  · rw [Session.printBlocks_defined, hr.defined]
    rfl
  · intro z hz
    rw [Session.printBlocks_sizing, hr.sizing] at hz
    cases hz
  · rw [Session.printBlocks_own, hr.own]
    rfl
  · rw [hpage, hr.page, prelude]
    simp [Backend.newSession]

/-- The loop over all declarations. -/
theorem After.loop (hsh : sh.Describes b) (hi : i.Distinct) {functions : Bool}
    (hfun : functions = b.host.emitsFunctions ∨ i.functions = [])
    (h : sh.After b i before [] before) (hstart : before.own = b.start) :
    ((∃ s, Yields (i.decls.forM (b.emitEntry i functions)) before () s) ↔ sh.Emittable b i) ∧
      ∀ s, Yields (i.decls.forM (b.emitEntry i functions)) before () s →
        sh.After b i before i.decls s := by
  have hentry : ∀ done d todo s t, i.decls = done ++ d :: todo → sh.After b i before done s →
      Yields (b.emitEntry i functions d) s () t → sh.After b i before (done ++ [d]) t :=
    fun done d todo s t hsplit h => (h.entry hsh hi hsplit hfun).2 t
  rw [emittable_iff hstart]
  refine ⟨exists_yields_forM_iff (P := fun done s => sh.After b i before done s) ?_ hentry h, ?_⟩
  · exact fun done d todo s hsplit h => (h.entry hsh hi hsplit hfun).1
  · exact fun s hs => hs.forM_inv (P := fun done s => sh.After b i before done s) hentry h

variable {skipUnsupported : Bool} {reporter : Reporter}

/-- A run admits functions, prints the prelude, goes through the declarations and prints the
epilogue. -/
theorem Describes.yields_run (hsh : sh.Describes b) (hi : i.Distinct) :
    Yields (b.run i skipUnsupported) (b.newSession reporter) () t ↔
      ∃ functions r s, Yields (b.admitFunctions i skipUnsupported) (b.newSession reporter)
        functions r ∧
      Yields (i.decls.forM (b.emitEntry i functions)) (r.printBlocks (sh.opening i.name)) () s ∧
      t = s.print (sh.closing i.name) := by
  obtain ⟨-, hadmitted⟩ := b.yields_admitFunctions i skipUnsupported (b.newSession reporter)
  unfold Backend.run
  simp only [yields_bind, hsh.preamble]
  constructor
  · rintro ⟨functions, r, hfun, _, _, rfl, _, s, hs, hclose⟩
    obtain ⟨halike, hor⟩ := hadmitted _ _ hfun
    obtain ⟨hafter, hstart, -⟩ := hsh.opened (i := i) halike
    have hpage := ((hafter.loop hsh hi hor hstart).2 s hs).page
    exact ⟨functions, r, s, hfun, hs, (hsh.ending (by rw [hpage])).mp hclose⟩
  · rintro ⟨functions, r, s, hfun, hs, rfl⟩
    obtain ⟨halike, hor⟩ := hadmitted _ _ hfun
    obtain ⟨hafter, hstart, -⟩ := hsh.opened (i := i) halike
    have hpage := ((hafter.loop hsh hi hor hstart).2 s hs).page
    exact ⟨functions, r, hfun, (), _, rfl, (), s, hs, (hsh.ending (by rw [hpage])).mpr rfl⟩

/-- A run of a fresh session succeeds exactly if functions are admitted and every declaration fits
where it stands. -/
theorem Describes.run_succeeds_iff (hsh : sh.Describes b) (hi : i.Distinct) :
    (∃ t, Yields (b.run i skipUnsupported) (b.newSession reporter) () t) ↔
      (b.host.emitsFunctions = true ∨ i.functions = [] ∨ skipUnsupported = true) ∧
        sh.Emittable b i := by
  obtain ⟨hadmits, hadmitted⟩ := b.yields_admitFunctions i skipUnsupported (b.newSession reporter)
  simp only [hsh.yields_run hi]
  constructor
  · rintro ⟨t, functions, r, s, hfun, hs, -⟩
    obtain ⟨halike, hor⟩ := hadmitted _ _ hfun
    obtain ⟨hafter, hstart, -⟩ := hsh.opened (i := i) halike
    exact ⟨hadmits.mp ⟨functions, r, hfun⟩, (hafter.loop hsh hi hor hstart).1.mp ⟨s, hs⟩⟩
  · rintro ⟨hcan, hemit⟩
    obtain ⟨functions, r, hfun⟩ := hadmits.mpr hcan
    obtain ⟨halike, hor⟩ := hadmitted _ _ hfun
    obtain ⟨hafter, hstart, -⟩ := hsh.opened (i := i) halike
    obtain ⟨s, hs⟩ := (hafter.loop hsh hi hor hstart).1.mpr hemit
    exact ⟨_, functions, r, s, hfun, hs, rfl⟩

/-- What a run that succeeds has written and left in the session is told by the sheet. -/
theorem Describes.finished (hsh : sh.Describes b) (hi : i.Distinct)
    (h : Yields (b.run i skipUnsupported) (b.newSession reporter) () t) :
    sh.Finished b i t := by
  obtain ⟨functions, r, s, hfun, hs, rfl⟩ := (hsh.yields_run hi).mp h
  obtain ⟨-, hadmitted⟩ := b.yields_admitFunctions i skipUnsupported (b.newSession reporter)
  obtain ⟨halike, hor⟩ := hadmitted _ _ hfun
  obtain ⟨hafter, hstart, hopen⟩ := hsh.opened (i := i) halike
  exact ((hafter.loop hsh hi hor hstart).2 s hs).finished hsh hstart hopen

end Sheet

/-- A text is generated exactly by a run that succeeds. -/
theorem Backend.generate_eq_ok_iff {b : Backend V S} {i : Interface} {skipUnsupported : Bool}
    {reporter : Reporter} {text : String} :
    (b.generate i skipUnsupported reporter).1 = .ok text ↔
      ∃ t, Yields (b.run i skipUnsupported) (b.newSession reporter) () t ∧ t.page.text = text := by
  unfold Backend.generate
  simp only [Yields, outcome]
  rcases (b.run i skipUnsupported).run.run (b.newSession reporter) with ⟨fault | u, s⟩
  · simp
  · simp

end HostDecl
