import HostDecl.Proofs.Header.Lines

/-!
# What the pieces of a header read as

The reader finds types by their names in the text, with layouts that it computes; the assertions in
the text come from the calculator, which follows idents. After the pieces of some declarations the
reader is in the state that `stateAfter` tells, which is stated by idents and the calculator alone.
The piece of the next declaration takes it to the next such state (`Written.reads_piece`), and so
do all pieces together (`Written.reads_pieces`).
-/

namespace HostDecl

/-- The names of types in C: of aliases, structs and enums, in order. -/
def Interface.cTypeNames (i : Interface) : List String :=
  (i.decls.filter fun d => d.entity.isType).map fun d => Rules.c.typeName d.name

/-- C can name what the interface declares. -/
structure Interface.NamedInC (i : Interface) : Prop where
  decls : ∀ d ∈ i.decls, HasWord d.name
  members : ∀ d ∈ i.decls, ∀ members, d.entity = .struct members →
    ∀ member ∈ members, HasWord member.name
  nodup : i.cTypeNames.Nodup
  free : ∀ name ∈ i.cTypeNames, ∀ a, name ≠ AtomTable.c.token a

namespace Header

variable {config : Config} {i : Interface} {done todo : List Decl} {d : Decl}

/-! ## What is known after some declarations -/

/-- How C writes what a reference refers to. -/
def refType (i : Interface) : TypeRef → CType
  | .atom a => .named (AtomTable.c.token a).toList
  | .decl id => match i.get? id with
    | some d => declType d
    | none => voidType
  | .foreign _ => voidType

/-- The type that a declaration introduces, with its layout. -/
def entry (config : Config) (i : Interface) (d : Decl) : CType × Layout :=
  (declType d, i.layoutOf (Host.c.abi config) d.id)

/-- The types that are known after some declarations. -/
def knownAfter (config : Config) (i : Interface) (done : List Decl) : List (CType × Layout) :=
  ((done.filter fun d => d.entity.isType).map (entry config i)).reverse ++
    atomTypes config.target.arch.dataLayout

/-- How C writes the name of a member. -/
def fieldName (member : Field) : List Char :=
  (Rules.c.fieldName member.name).toList

/-- A struct with the layout of its declaration, and with all assertions that this calls for. -/
def structRead? (config : Config) (i : Interface) (d : Decl) : Option StructRead :=
  match d.entity with
  | .struct members =>
    let read : StructRead :=
      { tag := (Rules.c.typeName d.name).toList
        fields := members.map fieldName
        layout := i.layoutOf (Host.c.abi config) d.id }
    some (read.claim read.expected)
  | _ => none

/-- A reader that has read some declarations. -/
def stateAfter (config : Config) (i : Interface) (done : List Decl) : State where
  known := knownAfter config i done
  structs := (done.filterMap (structRead? config i)).reverse

theorem knownAfter_concat (config : Config) (i : Interface) (done : List Decl)
    (h : d.entity.isType = true) :
    knownAfter config i (done ++ [d]) = entry config i d :: knownAfter config i done := by
  simp [knownAfter, List.filter_append, h]

theorem knownAfter_concat_of_not (config : Config) (i : Interface) (done : List Decl)
    (h : d.entity.isType = false) :
    knownAfter config i (done ++ [d]) = knownAfter config i done := by
  simp [knownAfter, List.filter_append, h]

/-- The name in a type. -/
def CType.name : CType → List Char
  | .named name => name
  | .struct tag => tag

theorem name_declType (d : Decl) : (declType d).name = (Rules.c.typeName d.name).toList := by
  unfold declType
  split <;> rfl

theorem fst_atomTypes (dataLayout : String) : (atomTypes dataLayout).map Prod.fst =
    Atom.all.map fun a => .named (AtomTable.c.token a).toList := by
  rw [atomTypes, List.map_map]
  rfl

/-- No type is known twice. -/
theorem nodup_knownAfter (config : Config) (hc : i.NamedInC) (hsplit : i.decls = done ++ todo) :
    ((knownAfter config i done).map Prod.fst).Nodup := by
  have hsub : (done.filter fun d => d.entity.isType).Sublist
      (i.decls.filter fun d => d.entity.isType) := by
    rw [hsplit, List.filter_append]
    exact List.sublist_append_left _ _
  -- Even a tag and a defined name are spelled differently, so names alone tell types apart.
  have hdecls : ((done.filter fun d => d.entity.isType).map declType).Nodup := by
    refine List.Nodup.of_map (fun type => String.ofList type.name) ?_
    have hnames : ((done.filter fun d => d.entity.isType).map declType).map
        (fun type => String.ofList type.name) =
        (done.filter fun d => d.entity.isType).map fun d => Rules.c.typeName d.name := by
      rw [List.map_map]
      refine List.map_congr_left fun d _ => ?_
      rw [Function.comp_apply, name_declType, String.ofList_toList]
    rw [hnames]
    exact hc.nodup.sublist (hsub.map _)
  have hatoms : (Atom.all.map fun a => CType.named (AtomTable.c.token a).toList).Nodup := by
    decide +kernel
  have hkeys : (knownAfter config i done).map Prod.fst =
      ((done.filter fun d => d.entity.isType).map declType).reverse ++
        Atom.all.map fun a => .named (AtomTable.c.token a).toList := by
    rw [knownAfter, List.map_append, fst_atomTypes, List.map_reverse, List.map_map]
    rfl
  rw [hkeys]
  refine List.nodup_append'.mpr ⟨List.nodup_reverse.mpr hdecls, hatoms, ?_⟩
  intro type htype hatom
  obtain ⟨d, hd, rfl⟩ := List.mem_map.mp (List.mem_reverse.mp htype)
  obtain ⟨a, -, ha⟩ := List.mem_map.mp hatom
  have hname : (Rules.c.typeName d.name).toList = (AtomTable.c.token a).toList := by
    rw [← name_declType, ← ha]
    rfl
  exact hc.free _ (List.mem_map.mpr ⟨d, hsub.subset hd, rfl⟩) a (String.toList_injective hname)

/-- A type that comes next is not known. -/
theorem lookup_declType (config : Config) (hc : i.NamedInC) (hsplit : i.decls = done ++ d :: todo)
    (h : d.entity.isType = true) : (knownAfter config i done).lookup (declType d) = none := by
  have hsplit' : i.decls = (done ++ [d]) ++ todo := by simp [hsplit]
  have hnodup := nodup_knownAfter config hc hsplit'
  rw [knownAfter_concat config i done h, List.map_cons, List.nodup_cons] at hnodup
  rw [List.lookup_eq_none_iff]
  intro known hknown
  rw [bne_iff_ne]
  intro heq
  exact hnodup.1 (List.mem_map.mpr ⟨known, hknown, heq.symm⟩)

/-- What a reference refers to is known with its layout. -/
theorem lookup_refType (hi : i.Distinct) (hc : i.NamedInC) (hsplit : i.decls = done ++ todo)
    {type : TypeRef} (htype : type.DeclaredIn done) {layout : Layout}
    (h : i.LaidOut (Host.c.abi config) type layout) :
    (knownAfter config i done).lookup (refType i type) = some layout := by
  refine lookup_eq_some_of_mem (nodup_knownAfter config hc hsplit) ?_
  cases type with
  | atom a =>
      cases h with
      | atom =>
          refine List.mem_append_right _ (List.mem_map.mpr ⟨a, a.mem_all, ?_⟩)
          rw [Arch.scalar_eq]
          cases a <;> rfl
  | decl id =>
      have hsub : ∀ d ∈ done, d ∈ i.decls := fun d hd => hsplit ▸ List.mem_append_left _ hd
      obtain ⟨d, hd, hget, hist⟩ := Interface.mem_of_declaredIn hi hsub htype
      obtain rfl := Interface.id_of_get? hget
      have hentry : (refType i (.decl d.id), layout) = entry config i d := by
        rw [refType, hget, entry, h.layoutOf_eq]
      rw [hentry]
      refine List.mem_append_left _ (List.mem_reverse.mpr (List.mem_map.mpr ⟨d, ?_, rfl⟩))
      exact List.mem_filter.mpr ⟨hd, hist⟩
  | foreign text => exact htype.elim

/-! ## Reading pieces -/

/-- The characters of lines. -/
def lineChars (lines : List Line) : List (List Char) :=
  lines.map fun line => line.shown.toList

/-- What references to the first declarations read as is how C writes the types. -/
structure Reads (i : Interface) (done : List Decl) (read : TypeRef → String) : Prop where
  text : ∀ type, type.DeclaredIn done → (read type).toList = (refType i type).text
  proper : ∀ type, type.DeclaredIn done → (refType i type).Proper

theorem Reads.of_subset {read : TypeRef → String} {decls : List Decl} (h : Reads i decls read)
    (hsub : ∀ d ∈ done, d ∈ decls) : Reads i done read where
  text type htype := h.text type (htype.mono hsub)
  proper type htype := h.proper type (htype.mono hsub)

/-- The members of a struct, each with the layout of its type. -/
theorem reads_members {read : TypeRef → String} (hread : Reads i done read) {members : List Field}
    (hmembers : ∀ member ∈ members, HasWord member.name ∧ member.type.DeclaredIn done)
    {layouts : List Layout} {known : List (CType × Layout)}
    (h : List.Forall₂ (fun member l => known.lookup (refType i member.type) = some l)
      members layouts) {s : State} (hknown : s.known = known) {tag : List Char}
    {first : List (List Char × Layout)} (hs : s.place = .inStruct tag first) :
    s.readLines (lineChars (members.map (C.memberLine read))) =
      some (s.moved (.inStruct tag (first ++ (members.map fieldName).zip layouts))) := by
  induction h generalizing s first with
  | nil =>
      rw [List.map_nil, List.map_nil, List.zip_nil_left, List.append_nil, ← hs]
      rfl
  | @cons member layout members layouts hlookup _ ih =>
      obtain ⟨⟨hword, hdeclared⟩, hrest⟩ := List.forall_mem_cons.mp hmembers
      have hstatement := statement_memberLine (hread.text _ hdeclared) (hread.proper _ hdeclared)
        hword
      have hfound : s.known.lookup (refType i member.type) = some layout := hknown ▸ hlookup
      have hstep : s.step (statement (C.memberLine read member).shown.toList) =
          some (s.moved (.inStruct tag (first ++ [(fieldName member, layout)]))) := by
        rw [hstatement]
        exact State.step_member hs hfound
      have hlater := fun first' => ih hrest (s := s.moved (.inStruct tag first')) hknown rfl
      rw [List.map_cons, lineChars, List.map_cons, State.readLines_cons _ hstep, ← lineChars,
        hlater, List.map_cons, List.zip_cons_cons, List.append_assoc]
      rfl

/-- Assertions are kept with the last struct. -/
theorem reads_asserts {s : State} (hs : s.place = .outside) {last : StructRead}
    {structs : List StructRead} (hstructs : s.structs = last :: structs)
    {lines : List (List Char)} {assertions : List Assertion}
    (h : List.Forall₂ (fun line assertion => statement line = .assert assertion) lines
      assertions) :
    s.readLines lines = some (s.holding (last.claim assertions :: structs)) := by
  induction h generalizing s last with
  | nil =>
      have hclaim : last.claim [] = last := by
        rw [StructRead.claim, List.append_nil]
      rw [hclaim, ← hstructs]
      rfl
  | @cons line assertion lines assertions hline _ ih =>
      have hstep : s.step (statement line) =
          some (s.holding (last.claim [assertion] :: structs)) := by
        rw [hline]
        exact State.step_assert hs hstructs assertion
      have hlater := ih (s := s.holding (last.claim [assertion] :: structs)) hs rfl
      rw [State.readLines_cons _ hstep, hlater, StructRead.claim, StructRead.claim,
        StructRead.claim, List.append_assoc]
      rfl

/-- What the struct's line, its members and its end come to. -/
theorem reads_structLines {read : TypeRef → String} (hread : Reads i done read)
    {members : List Field} (hd : HasWord d.name)
    (hmembers : ∀ member ∈ members, HasWord member.name ∧ member.type.DeclaredIn done)
    {layouts : List Layout} {s : State} (hs : s.place = .outside)
    (h : List.Forall₂ (fun member l => s.known.lookup (refType i member.type) = some l)
      members layouts)
    (hfree : s.known.lookup (.struct (Rules.c.typeName d.name).toList) = none) :
    s.readLines (lineChars (C.structLines read d members)) =
      some ((s.holding ({ tag := (Rules.c.typeName d.name).toList
                          fields := members.map fieldName
                          layout := aggregate layouts } :: s.structs)).knowing
        (.struct (Rules.c.typeName d.name).toList) (aggregate layouts)) := by
  have hopen : s.step (statement ({ text := C.structTag d ++ " \x7b" } : Line).shown.toList) =
      some (s.moved (.inStruct (Rules.c.typeName d.name).toList [])) := by
    rw [statement_structLine hd]
    unfold State.step
    rw [hs]
  have hinside := reads_members hread hmembers h
    (s := s.moved (.inStruct (Rules.c.typeName d.name).toList [])) rfl rfl
  have hend : ({ text := "\x7d;" } : Line).shown.toList = ['\x7d', ';'] := by
    rw [Line.shown_mk_text]
    simp
  have hlen : (members.map fieldName).length = layouts.length := by
    rw [List.length_map, h.length_eq]
  have hclose := State.step_close (s := s.moved (.inStruct (Rules.c.typeName d.name).toList
    ([] ++ (members.map fieldName).zip layouts))) rfl hfree
  rw [← statement_close, List.nil_append, List.map_fst_zip (Nat.le_of_eq hlen),
    List.map_snd_zip (Nat.le_of_eq hlen.symm),
    State.moved_moved hs] at hclose
  have hlines : lineChars (C.structLines read d members) =
      ({ text := C.structTag d ++ " \x7b" } : Line).shown.toList ::
        (lineChars (members.map (C.memberLine read)) ++ [['\x7d', ';']]) := by
    rw [← hend]
    simp [lineChars, C.structLines]
  rw [hlines, State.readLines_cons _ hopen, State.readLines_append _ hinside]
  exact State.readLines_cons [] hclose

/-- The assertions behind a struct are those that its layout calls for. -/
theorem statement_assertLines {members : List Field} (hd : HasWord d.name)
    (hmembers : ∀ member ∈ members, HasWord member.name) (layout : Layout) :
    List.Forall₂ (fun line assertion => statement line = .assert assertion)
      (lineChars (C.assertLines layout d members))
      (StructRead.expected { tag := (Rules.c.typeName d.name).toList
                             fields := members.map fieldName
                             layout }) := by
  have hlines : lineChars (C.assertLines layout d members) =
      (C.assertLine ("sizeof(" ++ C.structTag d ++ ")") layout.size).shown.toList ::
        (C.assertLine ("_Alignof(" ++ C.structTag d ++ ")") layout.align).shown.toList ::
          (members.zip layout.offsets).map fun member => (C.offsetLine d member).shown.toList := by
    simp [lineChars, C.assertLines]
  rw [hlines, StructRead.expected, List.cons_append, List.cons_append, List.nil_append,
    List.forall₂_cons, List.forall₂_cons]
  dsimp only
  refine ⟨statement_wholeLine (by decide) (by decide) measured?_size hd layout.size,
    statement_wholeLine (by decide) (by decide) measured?_align hd layout.align, ?_⟩
  rw [List.zip_map_left, List.map_map, List.forall₂_map_left_iff, List.forall₂_map_right_iff,
    List.forall₂_same]
  rintro ⟨member, n⟩ hmember
  dsimp only [Function.comp_apply, Prod.map_apply, id_eq]
  exact statement_offsetLine hd (hmembers member (List.of_mem_zip hmember).1)

theorem reads_typedef {s : State} (hs : s.place = .outside) {line name : List Char}
    {type : CType} {layout : Layout} (hline : statement line = .typedef type name)
    (h : s.known.lookup type = some layout) (hfree : s.known.lookup (.named name) = none) :
    s.readLines [line] = some (s.knowing (.named name) layout) := by
  have hstep : s.step (statement line) = some (s.knowing (.named name) layout) := by
    rw [hline, State.step_typedef hs h, State.introduce_eq hfree]
  exact State.readLines_cons [] hstep

/-- Inside an enum, lines are passed over. -/
theorem reads_inEnum {s : State} (hs : s.place = .inEnum) {lines : List (List Char)}
    (h : ∀ line ∈ lines, statement line ≠ .close) : s.readLines lines = some s := by
  induction lines with
  | nil => rfl
  | cons line lines ih =>
      obtain ⟨hline, hrest⟩ := List.forall_mem_cons.mp h
      rw [State.readLines_cons _ (State.step_inEnum hs hline), ih hrest]

theorem reads_enumLines {read : TypeRef → String} {ref : TypeRef} {type : CType}
    (hread : (read ref).toList = type.text) (hproper : type.Proper) (hd : HasWord d.name)
    (variants : List String) {s : State} (hs : s.place = .outside) {layout : Layout}
    (h : s.known.lookup type = some layout)
    (hfree : s.known.lookup (.named (Rules.c.typeName d.name).toList) = none) :
    s.readLines (lineChars (C.enumLines (read ref) d variants)) =
      some (s.knowing (.named (Rules.c.typeName d.name).toList) layout) := by
  have hopen : s.step (statement ({ text := "enum ___" ++ Rules.c.typeName d.name ++ " \x7b" } :
      Line).shown.toList) = some (s.moved .inEnum) := by
    rw [statement_enumLine]
    unfold State.step
    rw [hs]
  have hinside : (s.moved .inEnum).readLines (lineChars (variants.zipIdx.map (C.variantLine d))) =
      some (s.moved .inEnum) := by
    refine reads_inEnum rfl fun line hline => ?_
    simp only [lineChars, List.map_map, List.mem_map] at hline
    obtain ⟨variant, -, rfl⟩ := hline
    exact statement_variantLine hd variant
  have hclose : (s.moved .inEnum).step (statement ['\x7d', ';']) = some s := by
    rw [statement_close, ← State.moved_moved hs .inEnum]
    rfl
  have hend : ({ text := "\x7d;" } : Line).shown.toList = ['\x7d', ';'] := by
    rw [Line.shown_mk_text]
    simp
  have hlines : lineChars (C.enumLines (read ref) d variants) =
      ({ text := "enum ___" ++ Rules.c.typeName d.name ++ " \x7b" } : Line).shown.toList ::
        (lineChars (variants.zipIdx.map (C.variantLine d)) ++ ['\x7d', ';'] ::
          [({ text := "typedef " ++ read ref ++ " " ++ Rules.c.typeName d.name ++ "; // enum ___"
            ++ Rules.c.typeName d.name } : Line).shown.toList]) := by
    rw [← hend]
    simp [lineChars, C.enumLines]
  rw [hlines, State.readLines_cons _ hopen, State.readLines_append _ hinside,
    State.readLines_cons _ hclose]
  exact reads_typedef hs (statement_enumTypedef hread hproper hd) h hfree

/-! ## One more declaration -/

/-- Without a struct, a type is all that comes to be known. -/
theorem stateAfter_type (config : Config) (i : Interface) (done : List Decl)
    (h : d.entity.isType = true) (hnot : ∀ members, d.entity ≠ .struct members) :
    stateAfter config i (done ++ [d]) = (stateAfter config i done).knowing
      (.named (Rules.c.typeName d.name).toList) (i.layoutOf (Host.c.abi config) d.id) := by
  have hread : structRead? config i d = none := by
    unfold structRead?
    split
    · rename_i members he
      exact (hnot members he).elim
    · rfl
  have htype : declType d = .named (Rules.c.typeName d.name).toList := by
    unfold declType
    split
    · rename_i members he
      exact (hnot members he).elim
    · rfl
  rw [stateAfter, knownAfter_concat config i done h, List.filterMap_append, List.filterMap_cons,
    hread, entry, htype]
  simp [stateAfter, State.knowing]

theorem stateAfter_struct (config : Config) (i : Interface) (done : List Decl)
    {members : List Field} (he : d.entity = .struct members) {read : StructRead}
    (hread : read = { tag := (Rules.c.typeName d.name).toList
                      fields := members.map fieldName
                      layout := i.layoutOf (Host.c.abi config) d.id }) :
    stateAfter config i (done ++ [d]) = ((stateAfter config i done).holding
      (read.claim read.expected :: (stateAfter config i done).structs)).knowing
        (.struct (Rules.c.typeName d.name).toList) read.layout := by
  have htype : declType d = .struct (Rules.c.typeName d.name).toList := by
    simp only [declType, he]
  have hist : d.entity.isType = true := by rw [he]; rfl
  have hstruct : structRead? config i d = some (read.claim read.expected) := by
    simp only [structRead?, he, hread]
  rw [stateAfter, knownAfter_concat config i done hist, List.filterMap_append,
    List.filterMap_cons, hstruct, entry, htype, hread]
  simp [stateAfter, State.knowing, State.holding]

theorem stateAfter_function (config : Config) (i : Interface) (done : List Decl)
    {args : List Field} {result : Option TypeRef} (he : d.entity = .function args result) :
    stateAfter config i (done ++ [d]) = stateAfter config i done := by
  have hnot : d.entity.isType = false := by rw [he]; rfl
  have hread : structRead? config i d = none := by simp only [structRead?, he]
  rw [stateAfter, knownAfter_concat_of_not config i done hnot, List.filterMap_append,
    List.filterMap_cons, hread]
  simp [stateAfter]

section

variable {read : TypeRef → String}

theorem reads_alias (hi : i.Distinct) (hc : i.NamedInC) (hsplit : i.decls = done ++ d :: todo)
    (hread : Reads i done read) {target : TypeRef} (he : d.entity = .aliasOf target)
    (htarget : target.DeclaredIn done) {layout : Layout}
    (h : i.LaidOut (Host.c.abi config) (.decl d.id) layout) :
    (stateAfter config i done).readLines (lineChars [C.aliasLine read d target]) =
      some (stateAfter config i (done ++ [d])) := by
  have hmem : d ∈ i.decls := by simp [hsplit]
  have hist : d.entity.isType = true := by rw [he]; rfl
  have hlayout := h.ofAlias (Interface.get?_of_mem hi hmem) he
  have hfree := lookup_declType config hc hsplit hist
  simp only [declType, he] at hfree
  rw [stateAfter_type config i done hist (by simp [he]), h.layoutOf_eq]
  exact reads_typedef rfl (statement_aliasLine (hread.text target htarget)
    (hread.proper target htarget) (hc.decls d hmem)) (lookup_refType hi hc hsplit htarget hlayout)
    hfree

theorem reads_struct (hi : i.Distinct) (hc : i.NamedInC) (hsplit : i.decls = done ++ d :: todo)
    (hread : Reads i done read) {members : List Field} (he : d.entity = .struct members)
    (hmembers : ∀ member ∈ members, member.type.DeclaredIn done) {layout : Layout}
    (h : i.LaidOut (Host.c.abi config) (.decl d.id) layout) :
    (stateAfter config i done).readLines
        (lineChars (C.structLines read d members ++ C.assertLines layout d members)) =
      some (stateAfter config i (done ++ [d])) := by
  have hmem : d ∈ i.decls := by simp [hsplit]
  have hist : d.entity.isType = true := by rw [he]; rfl
  have hword := hc.decls d hmem
  have hwords := hc.members d hmem members he
  obtain ⟨layouts, rfl, hlayouts⟩ := h.ofStruct (Interface.get?_of_mem hi hmem) he
  obtain ⟨hlen, hzip⟩ := List.forall₂_iff_zip.mp hlayouts
  -- The reader computes `aggregate layouts`; the assertions have the calculator's numbers.
  have haggregate := Interface.LaidOut.aggregate_eq hlen fun p hp => hzip hp
  have hfree := lookup_declType config hc hsplit hist
  simp only [declType, he] at hfree
  have hlookups : List.Forall₂
      (fun member l => (stateAfter config i done).known.lookup (refType i member.type) = some l)
      members layouts := by
    refine List.forall₂_iff_zip.mpr ⟨hlen, fun {member l} hp => ?_⟩
    exact lookup_refType hi hc hsplit (hmembers member (List.of_mem_zip hp).1) (hzip hp)
  have hstruct := reads_structLines hread hword
    (fun member hm => ⟨hwords member hm, hmembers member hm⟩) rfl hlookups hfree
  have hasserts := statement_assertLines hword hwords (.ofMembers layouts)
  rw [haggregate] at hstruct
  generalize hr : ({ tag := (Rules.c.typeName d.name).toList
                     fields := members.map fieldName
                     layout := .ofMembers layouts } : StructRead) = r at hstruct hasserts
  have hlines : lineChars (C.structLines read d members ++
      C.assertLines (.ofMembers layouts) d members) = lineChars (C.structLines read d members) ++
        lineChars (C.assertLines (.ofMembers layouts) d members) := List.map_append
  have hlast := reads_asserts (s := ((stateAfter config i done).holding
    (r :: (stateAfter config i done).structs)).knowing (.struct (Rules.c.typeName d.name).toList)
      (.ofMembers layouts)) rfl rfl hasserts
  rw [State.holding_knowing] at hlast
  have hafter : r = { tag := (Rules.c.typeName d.name).toList
                      fields := members.map fieldName
                      layout := i.layoutOf (Host.c.abi config) d.id } := by
    rw [← hr, h.layoutOf_eq]
  have hlayout : r.layout = .ofMembers layouts := by rw [← hr]
  rw [hlines, State.readLines_append _ hstruct, hlast, stateAfter_struct config i done he hafter,
    hlayout]

theorem reads_enum (hi : i.Distinct) (hc : i.NamedInC) (hsplit : i.decls = done ++ d :: todo)
    (hread : Reads i done read) {variants : List String} (he : d.entity = .enum variants)
    {layout : Layout} (h : i.LaidOut (Host.c.abi config) (.decl d.id) layout) :
    (stateAfter config i done).readLines
        (lineChars (C.enumLines (read (.atom config.discriminant.val)) d variants)) =
      some (stateAfter config i (done ++ [d])) := by
  have hmem : d ∈ i.decls := by simp [hsplit]
  have hist : d.entity.isType = true := by rw [he]; rfl
  obtain rfl := h.ofEnum (Interface.get?_of_mem hi hmem) he
  have hfree := lookup_declType config hc hsplit hist
  simp only [declType, he] at hfree
  have hatom : (TypeRef.atom config.discriminant.val).DeclaredIn done := trivial
  rw [stateAfter_type config i done hist (by simp [he]), h.layoutOf_eq]
  exact reads_enumLines (hread.text _ hatom) (hread.proper _ hatom) (hc.decls d hmem) variants rfl
    (lookup_refType hi hc hsplit hatom (.atom _)) hfree

/-- A prototype has no types but known ones. -/
theorem reads_function (hi : i.Distinct) (hc : i.NamedInC) (hsplit : i.decls = done ++ d :: todo)
    (hread : Reads i done read) {args : List Field} {result : Option TypeRef}
    (he : d.entity = .function args result)
    (huses : ∀ type ∈ args.map Field.type ++ result.toList, type.DeclaredIn done)
    (hlaid : ∀ d ∈ i.decls, d.entity.isType = true →
      ∃ layout, i.LaidOut (Host.c.abi config) (.decl d.id) layout) :
    (stateAfter config i done).readLines (lineChars [C.functionLine read d args result]) =
      some (stateAfter config i (done ++ [d])) := by
  have hmem : d ∈ i.decls := by simp [hsplit]
  have hadmits : ∀ type ∈ args.map Field.type ++ result.toList,
      (stateAfter config i done).admits (refType i type) = true := by
    intro type htype
    have hdone : ∀ d ∈ done, d.entity.isType = true →
        ∃ layout, i.LaidOut (Host.c.abi config) (.decl d.id) layout :=
      fun d hd => hlaid d (hsplit ▸ List.mem_append_left _ hd)
    obtain ⟨layout, h⟩ := Interface.laidOut_of_declaredIn hdone (huses type htype)
    have hknown : (stateAfter config i done).known.lookup (refType i type) = some layout :=
      lookup_refType hi hc hsplit (huses type htype) h
    simp [State.admits, hknown]
  have hvoid : (stateAfter config i done).admits voidType = true := by simp [State.admits]
  have hstatement := statement_functionLine (d := d)
    (fun type htype => ⟨hread.text type (huses type htype), hread.proper type (huses type htype)⟩)
    (hc.decls d hmem)
  have hall : ∀ type ∈ (result.map (refType i)).getD voidType ::
      (if args = [] then [voidType] else args.map fun arg => refType i arg.type),
      (stateAfter config i done).admits type = true := by
    obtain ⟨hargs, hresult⟩ := List.forall_mem_append.mp hadmits
    refine List.forall_mem_cons.mpr ⟨?_, ?_⟩
    · cases result with
      | none => exact hvoid
      | some type => exact hresult type (by simp)
    · by_cases hnil : args = []
      · rw [if_pos hnil]
        exact List.forall_mem_singleton.mpr hvoid
      · rw [if_neg hnil]
        exact List.forall_mem_map.mpr (List.forall_mem_map.mp hargs)
  have hstep : (stateAfter config i done).step
      (statement (C.functionLine read d args result).shown.toList) =
        some (stateAfter config i done) := by
    rw [hstatement]
    exact State.step_prototype rfl hall
  rw [stateAfter_function config i done he]
  exact State.readLines_cons [] hstep

/-! ## All pieces -/

/-- An interface with all that a header for it depends on. -/
structure Written (config : Config) (i : Interface) (read : TypeRef → String) : Prop where
  distinct : i.Distinct
  named : i.NamedInC
  native : ∀ d ∈ i.decls, ∀ text, d.entity ≠ .foreign text
  ordered : i.Ordered Entity.uses
  laidOut : ∀ d ∈ i.decls, d.entity.isType = true →
    ∃ layout, i.LaidOut (Host.c.abi config) (.decl d.id) layout
  reads : Reads i i.decls read

/-- The comment in front of a declaration changes nothing. -/
theorem reads_header (config : Config) (i : Interface) (done : List Decl) (d : Decl) :
    (stateAfter config i done).readLines (lineChars ((C.backend config).header i d)) =
      some (stateAfter config i done) := by
  unfold Backend.header
  split
  · rfl
  · have hline : ((C.backend config).headerLine i d).shown.toList =
        "//".toList ++ (" " ++ d.name ++ ": " ++ i.describe d.entity).toList := by
      have hshown : ((C.backend config).headerLine i d).shown =
          "//" ++ " " ++ d.name ++ ": " ++ i.describe d.entity := Line.shown_mk_text _
      rw [hshown]
      simp only [String.toList_append, List.append_assoc]
    have hstep : (stateAfter config i done).step
        (statement ((C.backend config).headerLine i d).shown.toList) =
          some (stateAfter config i done) := by
      rw [hline, statement_comment]
      exact State.step_nothing rfl
    exact State.readLines_cons [] hstep

namespace Written

/-- The lines of a declaration take the reader one declaration further. -/
theorem reads_body (h : Written config i read) (hsplit : i.decls = done ++ d :: todo) :
    (stateAfter config i done).readLines
        (lineChars ((C.sheet config).body read (i.layoutOf (Host.c.abi config) d.id) d)) =
      some (stateAfter config i (done ++ [d])) := by
  have hmem : d ∈ i.decls := by simp [hsplit]
  have hread : Reads i done read := h.reads.of_subset fun d hd => by simp [hsplit, hd]
  have huses := h.ordered done d todo hsplit
  dsimp only [C.sheet]
  cases he : d.entity with
  | aliasOf target =>
      obtain ⟨layout, hlaid⟩ := h.laidOut d hmem (by rw [he]; rfl)
      exact reads_alias h.distinct h.named hsplit hread he (Entity.forall_target he huses) hlaid
  | struct members =>
      obtain ⟨layout, hlaid⟩ := h.laidOut d hmem (by rw [he]; rfl)
      rw [hlaid.layoutOf_eq]
      exact reads_struct h.distinct h.named hsplit hread he (Entity.forall_members he huses) hlaid
  | enum variants =>
      obtain ⟨layout, hlaid⟩ := h.laidOut d hmem (by rw [he]; rfl)
      exact reads_enum h.distinct h.named hsplit hread he hlaid
  | function args result =>
      rw [he] at huses
      exact reads_function h.distinct h.named hsplit hread he huses h.laidOut
  | foreign text => exact (h.native d hmem text he).elim

theorem reads_piece (h : Written config i read) (hsplit : i.decls = done ++ d :: todo) :
    (stateAfter config i done).readLines
        (lineChars ((C.sheet config).piece (C.backend config) i d read)) =
      some (stateAfter config i (done ++ [d])) := by
  have hlines : lineChars ((C.sheet config).piece (C.backend config) i d read) =
      lineChars ((C.backend config).header i d) ++
        lineChars ((C.sheet config).body read (i.layoutOf (Host.c.abi config) d.id) d) :=
    List.map_append
  rw [hlines, State.readLines_append _ (reads_header config i done d)]
  exact h.reads_body hsplit

/-- All pieces, each with a blank line behind it. -/
theorem reads_pieces (h : Written config i read) (hsplit : i.decls = done ++ todo) :
    (stateAfter config i done).readLines (todo.flatMap fun d =>
        lineChars ((C.sheet config).piece (C.backend config) i d read) ++ [[]]) =
      some (stateAfter config i i.decls) := by
  induction todo generalizing done with
  | nil =>
      rw [hsplit, List.append_nil]
      rfl
  | cons d todo ih =>
      have hblank : (stateAfter config i (done ++ [d])).step (statement []) =
          some (stateAfter config i (done ++ [d])) := by
        rw [statement_nil]
        exact State.step_nothing rfl
      rw [List.flatMap_cons, List.append_assoc, State.readLines_append _ (h.reads_piece hsplit),
        List.singleton_append, State.readLines_cons _ hblank]
      exact ih (by simp [hsplit])

end Written

end

end Header

end HostDecl
