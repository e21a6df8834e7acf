import HostDecl.Proofs.Generate.Pieces
import HostDecl.Proofs.Header.Pieces

/-!
# Headers say the truth about themselves

Read from top to bottom, the declarations of a header introduce every type before it is used, and
each struct has the layout that the assertions behind it claim (`header_consistent`). The names in
an interface must leave the lines apart: a line break ends a line too early, and a backslash at the
end of a comment swallows the next line.
-/

namespace HostDecl

namespace Header

/-! ## Lines of a text -/

/-- The line goes on in the next one. -/
def Continued (line : String) : Prop :=
  line.toList.getLast? = some '\\'

instance (line : String) : Decidable (Continued line) :=
  inferInstanceAs (Decidable (_ = _))

variable {a b line : String} {lines : List String}

theorem not_continued_of_not_mem (h : '\\' ∉ line.toList) : ¬ Continued line :=
  fun hc => h (List.mem_of_getLast? hc)

theorem not_continued_append (ha : ¬ Continued a) (hb : ¬ Continued b) : ¬ Continued (a ++ b) := by
  rw [Continued, String.toList_append, List.getLast?_append]
  cases hlast : b.toList.getLast? with
  | none => exact ha
  | some c =>
      rw [Continued, hlast] at hb
      exact hb

/-- What a line ends with decides. -/
theorem not_continued_append_right (a : String) (hb : ¬ Continued b) (hne : b.toList ≠ []) :
    ¬ Continued (a ++ b) := by
  rw [Continued, String.toList_append, List.getLast?_append_of_ne_nil _ hne]
  exact hb

theorem not_continued_append_mark (a : String) {mark : String}
    (h : mark.toList.getLast?.any (· ≠ '\\') = true) : ¬ Continued (a ++ mark) := by
  obtain ⟨c, hlast, hc⟩ := (Option.any_eq_true _ _).mp h
  refine not_continued_append_right a ?_ ?_
  · rw [Continued, hlast]
    simpa using hc
  · rintro hnil
    simp [hnil] at hlast

theorem not_continued_shown {line : Line} (h : ¬ Continued line.text) : ¬ Continued line.shown := by
  refine not_continued_append (not_continued_of_not_mem ?_) h
  simp [Writer.margin]

theorem splitOn_linesText (h : ∀ line ∈ lines, OneLine line) :
    (linesText lines).toList.splitOn '\n' = lines.map String.toList ++ [[]] := by
  induction lines with
  | nil => rfl
  | cons line lines ih =>
      obtain ⟨hline, hrest⟩ := List.forall_mem_cons.mp h
      have htext : (linesText (line :: lines)).toList =
          line.toList ++ '\n' :: (linesText lines).toList := by
        simp [linesText_cons]
      rw [htext, List.splitOn_append_cons_self_of_not_mem hline, ih hrest]
      rfl

theorem foldr_splice (h : ∀ line ∈ lines, ¬ Continued line) :
    (lines.map String.toList ++ [[]]).foldr splice [] = lines.map String.toList ++ [[]] := by
  induction lines with
  | nil => rfl
  | cons line lines ih =>
      obtain ⟨hline, hrest⟩ := List.forall_mem_cons.mp h
      rw [List.map_cons, List.cons_append, List.foldr_cons, ih hrest]
      cases lines <;> exact if_neg hline

/-- A text whose lines stay apart is read line by line. -/
theorem read_linesText {dataLayout : String} (hlines : ∀ line ∈ lines, OneLine line)
    (hends : ∀ line ∈ lines, ¬ Continued line) {s : State}
    (h : State.readLines { known := atomTypes dataLayout } (lines.map String.toList) = some s)
    (hs : s.place = .outside) : read dataLayout (linesText lines) = some s.structs.reverse := by
  have hlast : State.readLines { known := atomTypes dataLayout }
      (lines.map String.toList ++ [[]]) = some s := by
    rw [State.readLines_append _ h]
    refine State.readLines_cons [] ?_
    rw [statement_nil]
    exact State.step_nothing hs
  simp only [read, splitOn_linesText hlines, foldr_splice hends]
  rw [hlast]
  exact if_pos hs

/-! ## Ends of lines -/

section

variable {config : Config} {i : Interface} {d : Decl} {read : TypeRef → String}

theorem not_continued_typeName (hd : HasWord d.name) (front : String) :
    ¬ Continued (front ++ Rules.c.typeName d.name) := by
  have hname : IsName (Rules.c.typeName d.name).toList := isName_spelled hd .type
  refine not_continued_append_right _ (not_continued_of_not_mem ?_) hname.ne_nil
  exact fun h => absurd (hname.ident _ h) (by decide)

/-- Every line of a declaration in C ends with a mark, or else with the name of an enum. -/
theorem not_continued_body (hd : HasWord d.name) (layout : Layout) :
    ∀ line ∈ (C.sheet config).body read layout d, ¬ Continued line.text := by
  intro line hline
  dsimp only [C.sheet] at hline
  cases he : d.entity with
  | aliasOf target =>
      rw [he] at hline
      obtain rfl := List.mem_singleton.mp hline
      exact not_continued_append_mark _ (by decide)
  | struct members =>
      rw [he] at hline
      simp only [C.structLines, C.assertLines, List.mem_append, List.mem_map, List.mem_cons,
        List.not_mem_nil, or_false] at hline
      rcases hline with ((rfl | ⟨member, -, rfl⟩) | rfl) | (rfl | rfl) | ⟨member, -, rfl⟩
      · exact not_continued_append_mark _ (by decide)
      · exact not_continued_append_mark _ (by decide)
      · decide
      all_goals exact not_continued_append_mark _ (by decide)
  | enum variants =>
      rw [he] at hline
      simp only [C.enumLines, List.mem_append, List.mem_map, List.mem_cons, List.not_mem_nil,
        or_false] at hline
      rcases hline with (rfl | ⟨variant, -, rfl⟩) | rfl | rfl
      · exact not_continued_append_mark _ (by decide)
      · exact not_continued_append_mark _ (by decide)
      · decide
      · exact not_continued_typeName hd _
  | function args result =>
      rw [he] at hline
      obtain rfl := List.mem_singleton.mp hline
      exact not_continued_append_mark _ (by decide)
  | foreign text =>
      rw [he] at hline
      cases hline

theorem not_continued_braced (keyword parts : String) :
    ¬ Continued (Interface.braced keyword parts) := by
  unfold Interface.braced
  split <;> exact not_continued_append_mark _ (by decide)

/-- The description of a type does not end with a backslash, unless the name of another does. -/
theorem not_continued_describe (htype : d.entity.isType = true)
    (hrefs : ∀ type ∈ d.entity.uses, ¬ Continued (i.refText type)) :
    ¬ Continued (i.describe d.entity) := by
  unfold Interface.describe
  cases he : d.entity with
  | aliasOf target =>
      rw [he] at hrefs
      exact not_continued_append (by decide) (Entity.forall_target rfl hrefs)
  | struct members => exact not_continued_braced _ _
  | enum variants => exact not_continued_braced _ _
  | function args result =>
      rw [he] at htype
      cases htype
  | foreign text =>
      rw [he] at htype
      cases htype

theorem not_continued_refText (hi : i.Distinct) (hnames : ∀ name ∈ i.names, '\\' ∉ name.toList)
    {type : TypeRef} (htype : type.DeclaredIn i.decls) : ¬ Continued (i.refText type) := by
  cases type with
  | atom a =>
      show ¬ Continued a.text
      cases a <;> decide
  | decl id =>
      obtain ⟨d, hd, hget, -⟩ := Interface.mem_of_declaredIn hi (fun _ h => h) htype
      rw [Interface.refText, Interface.nameOf, hget]
      exact not_continued_of_not_mem (hnames _ (Interface.mem_names hd List.mem_cons_self))
  | foreign text => exact htype.elim

end

/-! ## Whole headers -/

section

variable {config : Config} {i : Interface} {t : Session String Unit} {read : TypeRef → String}

/-- After a run, references read as C writes the types. -/
theorem reads_of_finished (h : (C.sheet config).Finished (C.backend config) i t) (hi : i.Distinct)
    (hc : i.NamedInC) : Reads i i.decls (t.defined.reading AtomTable.c.token) where
  text type htype := by
    cases type with
    | atom a => rfl
    | decl id =>
        obtain ⟨d, hd, hget, hist⟩ := Interface.mem_of_declaredIn hi (fun _ h => h) htype
        obtain rfl := Interface.id_of_get? hget
        have hreading : t.defined.reading AtomTable.c.token (.decl d.id) =
            (C.sheet config).value (t.defined.reading AtomTable.c.token) d :=
          h.reading_decl hd hist
        rw [hreading, value_toList, refType, hget]
    | foreign text => exact htype.elim
  proper type htype := by
    cases type with
    | atom a =>
        have hatoms : ∀ a ∈ Atom.all, IsName (AtomTable.c.token a).toList ∧
            (AtomTable.c.token a).toList ∉ keywords := by
          decide +kernel
        exact hatoms a a.mem_all
    | decl id =>
        obtain ⟨d, hd, hget, -⟩ := Interface.mem_of_declaredIn hi (fun _ h => h) htype
        rw [refType, hget]
        exact declType_proper (hc.decls d hd)
    | foreign text => exact htype.elim

theorem written_of_finished (h : (C.sheet config).Finished (C.backend config) i t)
    (hi : i.Distinct) (hc : i.NamedInC)
    (hemittable : (C.sheet config).Emittable (C.backend config) i) :
    Written config i (t.defined.reading AtomTable.c.token) where
  distinct := hi
  named := hc
  native := hemittable.native
  ordered := hemittable.ordered
  laidOut := h.laidOut
  reads := reads_of_finished h hi hc

/-- The lines of a header behind its prelude. -/
def declarationLines (config : Config) (i : Interface) (read : TypeRef → String) : List String :=
  blockLines (i.decls.map fun d => (C.sheet config).piece (C.backend config) i d read) ++
    ((C.sheet config).closing i.name).map Line.shown

theorem text_eq (h : (C.sheet config).Finished (C.backend config) i t) :
    t.page.text = Host.c.prelude config i ++
      linesText (declarationLines config i (t.defined.reading AtomTable.c.token)) := by
  have hall : i.decls.filter (C.backend config).emits = i.decls :=
    List.filter_eq_self.mpr fun _ _ => rfl
  have hprelude : Host.c.prelude config i = (C.sheet config).prelude i.name :=
    (C.describes config).prelude_eq
  have hjoin := join_blockText (i.decls.map fun d =>
    (C.sheet config).piece (C.backend config) i d (t.defined.reading AtomTable.c.token))
  rw [List.map_map] at hjoin
  rw [h.text, hall, hprelude, declarationLines, linesText_append, ← hjoin, String.append_assoc]
  rfl

/-- No line of a piece goes on in the next one. -/
theorem not_continued_piece (h : Written config i read)
    (hnames : ∀ name ∈ i.names, '\\' ∉ name.toList) {d : Decl} (hd : d ∈ i.decls) :
    ∀ line ∈ (C.sheet config).piece (C.backend config) i d read, ¬ Continued line.text := by
  intro line hline
  rcases List.mem_append.mp hline with hline | hline
  · obtain ⟨hfunction, rfl⟩ := Backend.mem_header.mp hline
    have htype : d.entity.isType = true :=
      (Entity.isType_or_isFunction_iff.mpr (h.native d hd)).resolve_right
        (Bool.eq_false_iff.mp hfunction)
    refine not_continued_append (not_continued_append_mark _ (by decide)) ?_
    refine not_continued_describe htype fun type huse => ?_
    exact not_continued_refText h.distinct hnames
      (h.ordered.declaredIn (List.append_nil _).symm hd huse)
  · exact not_continued_body (h.named.decls d hd) _ line hline

/-- What holds of the lines of pieces, of blank lines and of the closing line holds of all. -/
theorem forall_declarationLines {P : String → Prop} (hblank : P "")
    (hclosing : P ("#endif // " ++ C.includeGuard { name := i.name, decls := [] }))
    (hpieces : ∀ d ∈ i.decls, ∀ line ∈ (C.sheet config).piece (C.backend config) i d read,
      P line.shown) : ∀ line ∈ declarationLines config i read, P line := by
  refine List.forall_mem_append.mpr ⟨fun line hline => ?_, ?_⟩
  · obtain ⟨lines, hlines, hline⟩ := List.mem_flatMap.mp hline
    obtain ⟨d, hd, rfl⟩ := List.mem_map.mp hlines
    rcases List.mem_append.mp hline with hline | hline
    · obtain ⟨line, hpiece, rfl⟩ := List.mem_map.mp hline
      exact hpieces d hd line hpiece
    · obtain rfl := List.mem_singleton.mp hline
      exact hblank
  · refine List.forall_mem_map.mpr (List.forall_mem_singleton.mpr ?_)
    rw [Line.shown_mk_text]
    exact hclosing

/-- Line by line, the declarations of a header read as they are meant. -/
theorem reads_declarationLines (h : Written config i read) :
    State.readLines { known := atomTypes config.target.arch.dataLayout }
        ((declarationLines config i read).map String.toList) =
      some (stateAfter config i i.decls) := by
  have hstart : stateAfter config i [] = { known := atomTypes config.target.arch.dataLayout } := by
    simp [stateAfter, knownAfter]
  have hlines : (declarationLines config i read).map String.toList =
      (i.decls.flatMap fun d =>
        lineChars ((C.sheet config).piece (C.backend config) i d read) ++ [[]]) ++
        [("#endif // " ++ C.includeGuard { name := i.name, decls := [] }).toList] := by
    have hclosing : (((C.sheet config).closing i.name).map Line.shown).map String.toList =
        [("#endif // " ++ C.includeGuard { name := i.name, decls := [] }).toList] :=
      congrArg (fun line : String => [line.toList]) (Line.shown_mk_text _)
    have hpieces : ∀ d, (((C.sheet config).piece (C.backend config) i d read).map Line.shown ++
        [""]).map String.toList =
          lineChars ((C.sheet config).piece (C.backend config) i d read) ++ [[]] := by
      intro d
      rw [List.map_append, List.map_map]
      rfl
    rw [declarationLines, List.map_append, hclosing, blockLines, List.map_flatMap,
      List.flatMap_map]
    simp only [hpieces]
  have hclose : (stateAfter config i i.decls).step (statement
      ("#endif // " ++ C.includeGuard { name := i.name, decls := [] }).toList) =
        some (stateAfter config i i.decls) := by
    have hline : ("#endif // " ++ C.includeGuard { name := i.name, decls := [] }).toList =
        '#' :: ("endif // " ++ C.includeGuard { name := i.name, decls := [] }).toList := by
      simp
    rw [hline, statement_directive]
    exact State.step_nothing rfl
  rw [← hstart, hlines, State.readLines_append _ (h.reads_pieces (List.nil_append _).symm)]
  exact State.readLines_cons [] hclose

theorem asserted_eq {d : Decl} {s : StructRead} (hs : structRead? config i d = some s) :
    s.asserted = s.expected := by
  cases he : d.entity with
  | struct members =>
      simp only [structRead?, he, Option.some.injEq] at hs
      subst hs
      rfl
  | _ => simp [structRead?, he] at hs

theorem Written.length_offsets (h : Written config i read) {d : Decl} (hd : d ∈ i.decls)
    {s : StructRead} (hs : structRead? config i d = some s) :
    s.layout.offsets.length = s.fields.length := by
  cases he : d.entity with
  | struct members =>
      obtain ⟨layout, hlayout⟩ := h.laidOut d hd (by rw [he]; rfl)
      obtain ⟨layouts, rfl, hlayouts⟩ := hlayout.ofStruct (Interface.get?_of_mem h.distinct hd) he
      simp only [structRead?, he, hlayout.layoutOf_eq, Option.some.injEq] at hs
      subst hs
      simp [StructRead.claim, Layout.length_offsets_ofMembers, hlayouts.length_eq]
  | _ => simp [structRead?, he] at hs

end

end Header

/-- The declarations of a header can be read: every type in them is introduced before it is used.
The structs that are read are those of the interface, each with the layout that the calculator
gives it. What is asserted about a struct is what the layout that has been read calls for, one
offset for each member included. -/
theorem header_consistent (config : Config) (i : Interface) (skipUnsupported : Bool)
    (reporter : Reporter) (text : String) (hi : i.Distinct)
    (hnames : ∀ name ∈ i.names, OneLine name ∧ '\\' ∉ name.toList) (hc : i.NamedInC)
    (h : (Host.c.generate config i skipUnsupported reporter).1 = .ok text) :
    ∃ declarations structs, text = Host.c.prelude config i ++ declarations ∧
      Header.read config.target.arch.dataLayout declarations = some structs ∧
      structs = i.decls.filterMap (Header.structRead? config i) ∧
      ∀ s ∈ structs, s.asserted = s.expected ∧ s.layout.offsets.length = s.fields.length := by
  obtain ⟨t, ht, rfl⟩ := Backend.generate_eq_ok_iff.mp h
  have hend := (C.describes config).finished hi ht
  have hemittable := (((C.describes config).run_succeeds_iff hi).mp ⟨t, ht⟩).2
  have hwritten := Header.written_of_finished hend hi hc hemittable
  have hlines : ∀ line ∈ Header.declarationLines config i (t.defined.reading AtomTable.c.token),
      OneLine line := by
    refine Header.forall_declarationLines (by decide) ?_ fun d hd line hline => ?_
    · exact oneLine_append.mpr ⟨by decide, C.oneLine_includeGuard _⟩
    · have hone : ∀ name ∈ i.names, OneLine name := fun name hname => (hnames name hname).1
      have htame : ∀ name ∈ d.names, Tame name :=
        fun name hname => .inr (hone name (Interface.mem_names hd hname))
      exact (hend.oneLine_piece (C.tidy config) hi hemittable.ordered (Interface.shownOneLine hone)
        (List.mem_filter.mpr ⟨hd, rfl⟩) htame line hline).shown
  have hends : ∀ line ∈ Header.declarationLines config i (t.defined.reading AtomTable.c.token),
      ¬ Header.Continued line := by
    refine Header.forall_declarationLines (by decide) ?_ fun d hd line hline => ?_
    · exact Header.not_continued_append (by decide)
        (Header.not_continued_append_mark _ (by decide))
    · exact Header.not_continued_shown (Header.not_continued_piece hwritten (fun name hname =>
        (hnames name hname).2) hd line hline)
  refine ⟨_, _, Header.text_eq hend, Header.read_linesText hlines hends
    (Header.reads_declarationLines hwritten) rfl, List.reverse_reverse _, fun s hs => ?_⟩
  obtain ⟨d, hd, hread⟩ := List.mem_filterMap.mp (List.mem_reverse.mp (List.mem_reverse.mp hs))
  exact ⟨Header.asserted_eq hread, hwritten.length_offsets hd hread⟩

theorem Interface.namedInC_shapes : Interface.shapes.NamedInC where
  decls := by decide
  members d hd members he := by
    have hmembers : ∀ d ∈ Interface.shapes.decls, ∀ name ∈ d.entity.names, HasWord name := by
      decide
    intro member hmember
    refine hmembers d hd _ ?_
    rw [he]
    exact List.mem_map.mpr ⟨member, hmember, rfl⟩
  nodup := by decide +kernel
  free := by
    have hall : ∀ name ∈ Interface.shapes.cTypeNames,
        ∀ a ∈ Atom.all, name ≠ AtomTable.c.token a := by
      decide +kernel
    exact fun name hname a => hall name hname a a.mem_all

theorem header_consistent_shapes :
    ∃ text declarations structs, (Host.c.generate .linux .shapes false {}).1 = .ok text ∧
      text = Host.c.prelude .linux .shapes ++ declarations ∧
      Header.read Config.linux.target.arch.dataLayout declarations = some structs ∧
      structs.map Header.StructRead.layout = [{ size := 16, align := 8, offsets := [0, 8] }] := by
  obtain ⟨text, h⟩ := generates_of_accepted .c .linux .shapes false {} (by decide)
    (by decide +kernel)
  obtain ⟨declarations, structs, htext, hread, rfl, -⟩ := header_consistent .linux .shapes false {}
    text (by decide) (by decide) Interface.namedInC_shapes h
  exact ⟨text, declarations, _, h, htext, hread, by decide +kernel⟩

end HostDecl
