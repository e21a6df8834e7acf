import HostDecl.Proofs.Backend.C
import HostDecl.Proofs.Backend.Llvm
import HostDecl.Proofs.Backend.Rust
import HostDecl.Proofs.Name.Spelling

/-!
# Lines stay lines

If no name that a comment shows has a line break in it, and each name of a declaration is spelled
without one, no line of the declaration has one either: what a declaration resolves to has none as
long as what it is made of has none, so none ever comes up. `Sheet.Tidy` says so for one
declaration, and `Sheet.Finished.oneLine_piece` for all of an interface. A spelling has a line break
exactly if the name has one and nothing in it can be converted (`Rules.oneLine_apply_iff`).
-/

namespace HostDecl

variable {V S : Type}

/-! ## Names -/

/-- The names inside an entity. -/
def Entity.names : Entity → List String
  | .struct members => members.map Field.name
  | .enum variants => variants
  | .function args _ => args.map Field.name
  | _ => []

def Decl.names (d : Decl) : List String :=
  d.name :: d.entity.names

/-- Every name in an interface, its own included. -/
def Interface.names (i : Interface) : List String :=
  i.name :: i.decls.flatMap Decl.names

theorem Interface.mem_names {i : Interface} {d : Decl} (hd : d ∈ i.decls) {name : String}
    (h : name ∈ d.names) : name ∈ i.names :=
  List.mem_cons_of_mem _ (List.mem_flatMap.mpr ⟨d, hd, h⟩)

/-- The names that comments show have no line break: those of all that is no function. -/
def Interface.ShownOneLine (i : Interface) : Prop :=
  ∀ d ∈ i.decls, d.entity.isFunction = false → ∀ name ∈ d.names, OneLine name

theorem Interface.shownOneLine {i : Interface} (h : ∀ name ∈ i.names, OneLine name) :
    i.ShownOneLine :=
  fun _ hd _ name hname => h name (Interface.mem_names hd hname)

theorem CaseStyle.oneLine_convert (style : CaseStyle) (name : String) :
    OneLine (style.convert name) := by
  intro h
  exact absurd (style.isIdentChar_convert name _ h) (by decide)

/-- The name is spelled without a line break: it has a letter or a digit, so that it is converted,
or it has no line break that could be kept. -/
def Tame (name : String) : Prop :=
  HasWord name ∨ OneLine name

instance (name : String) : Decidable (Tame name) :=
  inferInstanceAs (Decidable (_ ∨ _))

namespace Rules

variable {name : String}

theorem oneLine_convert_iff (rules : Rules) (role : Role) :
    OneLine (rules.convert name role) ↔ Tame name := by
  by_cases hword : HasWord name
  · rw [rules.convert_of_hasWord hword]
    exact iff_of_true (CaseStyle.oneLine_convert _ name) (.inl hword)
  · rw [rules.convert_of_not_hasWord hword]
    exact (or_iff_right hword).symm

theorem oneLine_escape_iff (escape : Escape) : OneLine (escape.apply name) ↔ OneLine name := by
  have hback : OneLine (name ++ "_") ↔ OneLine name := by
    rw [oneLine_append]
    exact and_iff_left (by decide)
  have hfront : OneLine ("r#" ++ name) ↔ OneLine name := by
    rw [oneLine_append]
    exact and_iff_right (by decide)
  unfold Escape.apply
  split
  · rfl
  · exact hback
  · split
    · exact hback
    · exact hfront

theorem oneLine_apply_iff (rules : Rules) (role : Role) :
    OneLine (rules.apply name role) ↔ Tame name := by
  rw [← rules.oneLine_convert_iff role]
  unfold apply
  dsimp only
  split
  · exact oneLine_escape_iff rules.escape
  · rfl

theorem oneLine_apply (h : Tame name) (rules : Rules) (role : Role) :
    OneLine (rules.apply name role) :=
  (rules.oneLine_apply_iff role).mpr h

end Rules

theorem Ir.newline_mem_escapedChar {c : Char} : '\n' ∈ Ir.escapedChar c ↔ c = '\n' := by
  unfold Ir.escapedChar
  split
  · rename_i h
    subst h
    decide
  · split
    · rename_i h
      subst h
      decide
    · rw [List.mem_singleton, eq_comm]

theorem Ir.oneLine_quotedName_iff {name : String} :
    OneLine (Ir.quotedName name) ↔ OneLine name := by
  simp [OneLine, Ir.quotedName, List.mem_flatMap, Ir.newline_mem_escapedChar]

theorem Ir.oneLine_quotedName {name : String} (h : OneLine name) :
    OneLine (Ir.quotedName name) :=
  Ir.oneLine_quotedName_iff.mpr h

/-! ## One declaration -/

/-- What atoms and the references read as is written without a line break. -/
structure ReadsOneLine (valueText : V → String) (refs : List TypeRef) (read : TypeRef → V) :
    Prop where
  atoms : ∀ a, OneLine (valueText (read (.atom a)))
  refs : ∀ type ∈ refs, OneLine (valueText (read type))

/-- A declaration whose names are spelled without a line break and whose references read as texts
without one is free of them. -/
structure Sheet.Tidy (sh : Sheet V S) (b : Backend V S) : Prop where
  comment : OneLine b.comment
  atoms : ∀ a, OneLine (b.valueText (b.atomType a))
  value : ∀ {d read}, (∀ name ∈ d.names, Tame name) →
    ReadsOneLine b.valueText d.entity.uses read → OneLine (b.valueText (sh.value read d))
  body : ∀ {d read layout}, (∀ name ∈ d.names, Tame name) →
    ReadsOneLine b.valueText d.entity.uses read →
    ∀ line ∈ sh.body read layout d, OneLine line.text

section

variable {d : Decl}

theorem Decl.tame_name (h : ∀ name ∈ d.names, Tame name) : Tame d.name :=
  h d.name List.mem_cons_self

theorem Decl.tame_members {members : List Field} (he : d.entity = .struct members)
    (h : ∀ name ∈ d.names, Tame name) : ∀ member ∈ members, Tame member.name := by
  intro member hmember
  refine h _ (List.mem_cons_of_mem _ ?_)
  rw [he]
  exact List.mem_map.mpr ⟨member, hmember, rfl⟩

theorem Decl.tame_variants {variants : List String} (he : d.entity = .enum variants)
    (h : ∀ name ∈ d.names, Tame name) : ∀ variant ∈ variants, Tame variant := by
  intro variant hvariant
  refine h _ (List.mem_cons_of_mem _ ?_)
  rwa [he]

theorem Decl.tame_args {args : List Field} {result : Option TypeRef}
    (he : d.entity = .function args result) (h : ∀ name ∈ d.names, Tame name) :
    ∀ arg ∈ args, Tame arg.name := by
  intro arg harg
  refine h _ (List.mem_cons_of_mem _ ?_)
  rw [he]
  exact List.mem_map.mpr ⟨arg, harg, rfl⟩

end

/-! ## C -/

section

variable {d : Decl} {read : TypeRef → String} {layout : Layout}

theorem C.oneLine_structTag (hname : Tame d.name) : OneLine (C.structTag d) := by
  rw [C.structTag, oneLine_append]
  exact ⟨by decide, Rules.oneLine_apply hname .c .type⟩

theorem C.oneLine_assertLine {what : String} (h : OneLine what) (n : Nat) :
    OneLine (C.assertLine what n).text := by
  dsimp only [C.assertLine]
  simp only [oneLine_append, h, oneLine_toString, and_true]
  decide

theorem C.oneLine_structLines {members : List Field} (hname : Tame d.name)
    (hmembers : ∀ member ∈ members, Tame member.name)
    (hreads : ∀ member ∈ members, OneLine (read member.type)) :
    ∀ line ∈ C.structLines read d members, OneLine line.text := by
  intro line hline
  simp only [C.structLines, List.mem_append, List.mem_map, List.mem_cons, List.not_mem_nil,
    or_false] at hline
  rcases hline with (rfl | ⟨member, hm, rfl⟩) | rfl
  · simp only [oneLine_append, C.oneLine_structTag hname, true_and]
    decide
  · have hfield : OneLine (Rules.c.fieldName member.name) :=
      Rules.oneLine_apply (hmembers member hm) .c .field
    simp only [C.memberLine, hreads member hm, hfield, oneLine_append, and_true, true_and]
    decide
  · decide

theorem C.oneLine_assertLines {members : List Field} (hname : Tame d.name)
    (hmembers : ∀ member ∈ members, Tame member.name) :
    ∀ line ∈ C.assertLines layout d members, OneLine line.text := by
  have htag := C.oneLine_structTag hname
  intro line hline
  simp only [C.assertLines, List.mem_append, List.mem_map, List.mem_cons, List.not_mem_nil,
    or_false] at hline
  rcases hline with (rfl | rfl) | ⟨⟨member, n⟩, hm, rfl⟩
  · refine C.oneLine_assertLine ?_ _
    simp only [oneLine_append, htag, and_true]
    decide
  · refine C.oneLine_assertLine ?_ _
    simp only [oneLine_append, htag, and_true]
    decide
  · have hfield : OneLine (Rules.c.fieldName member.name) :=
      Rules.oneLine_apply (hmembers member (List.of_mem_zip hm).1) .c .field
    refine C.oneLine_assertLine ?_ _
    simp only [oneLine_append, htag, hfield, and_true]
    decide

theorem C.oneLine_enumLines {reprName : String} {variants : List String}
    (hrepr : OneLine reprName) (hname : Tame d.name)
    (hvariants : ∀ variant ∈ variants, Tame variant) :
    ∀ line ∈ C.enumLines reprName d variants, OneLine line.text := by
  have htype : OneLine (Rules.c.typeName d.name) := Rules.oneLine_apply hname .c .type
  intro line hline
  simp only [C.enumLines, List.mem_append, List.mem_map, List.mem_cons, List.not_mem_nil,
    or_false] at hline
  rcases hline with (rfl | ⟨⟨variant, n⟩, hv, rfl⟩) | rfl | rfl
  · simp only [oneLine_append, htype, and_true]
    decide
  · have hvariant : OneLine (Rules.c.variantName variant) :=
      Rules.oneLine_apply (hvariants variant (List.fst_mem_of_mem_zipIdx hv)) .c .variant
    simp only [C.variantLine, hvariant, CaseStyle.oneLine_convert, oneLine_toString,
      oneLine_append, and_true, true_and]
    decide
  · decide
  · simp only [oneLine_append, htype, hrepr, and_true]
    decide

theorem C.oneLine_functionLine {args : List Field} {result : Option TypeRef}
    (hname : Tame d.name) (hargs : ∀ arg ∈ args, Tame arg.name)
    (hreads : ∀ arg ∈ args, OneLine (read arg.type))
    (hresult : ∀ type, result = some type → OneLine (read type)) :
    OneLine (C.functionLine read d args result).text := by
  have hparam : ∀ param ∈ args.map (C.paramText read), OneLine param := by
    refine List.forall_mem_map.mpr fun arg harg => ?_
    have hfield : OneLine (Rules.c.fieldName arg.name) :=
      Rules.oneLine_apply (hargs arg harg) .c .field
    simp only [C.paramText, hreads arg harg, hfield, oneLine_append, and_true, true_and]
    decide
  have hfront : OneLine ((result.map read).getD "void") := by
    cases result with
    | none =>
        show OneLine "void"
        decide
    | some type => exact hresult type rfl
  have hfunction : OneLine (Rules.c.functionName d.name) := Rules.oneLine_apply hname .c .function
  have hparams : OneLine (if (args.map (C.paramText read)).isEmpty then "void"
      else ", ".intercalate (args.map (C.paramText read))) := by
    split
    · decide
    · exact .intercalate (by decide) hparam
  simp only [C.functionLine, oneLine_append]
  exact ⟨⟨⟨⟨⟨hfront, by decide⟩, hfunction⟩, by decide⟩, hparams⟩, by decide⟩

theorem C.oneLine_body {config : Config} (hnames : ∀ name ∈ d.names, Tame name)
    (hreads : ReadsOneLine id d.entity.uses read) :
    ∀ line ∈ (C.sheet config).body read layout d, OneLine line.text := by
  have hname := Decl.tame_name hnames
  intro line hline
  dsimp only [C.sheet] at hline
  cases he : d.entity with
  | aliasOf target =>
      have hread : OneLine (read target) := Entity.forall_target he hreads.refs
      have htype : OneLine (Rules.c.typeName d.name) := Rules.oneLine_apply hname .c .type
      rw [he, List.mem_singleton] at hline
      subst hline
      simp only [C.aliasLine, oneLine_append, hread, htype, and_true]
      decide
  | struct members =>
      have hmembers := Decl.tame_members he hnames
      rw [he] at hline
      rcases List.mem_append.mp hline with hline | hline
      · exact C.oneLine_structLines hname hmembers (Entity.forall_members he hreads.refs) line hline
      · exact C.oneLine_assertLines hname hmembers line hline
  | enum variants =>
      rw [he] at hline
      exact C.oneLine_enumLines (hreads.atoms _) hname (Decl.tame_variants he hnames) line hline
  | function args result =>
      rw [he, List.mem_singleton] at hline
      subst hline
      exact C.oneLine_functionLine hname (Decl.tame_args he hnames)
        (Entity.forall_args he hreads.refs) (Entity.forall_result he hreads.refs)
  | foreign text =>
      rw [he] at hline
      cases hline

end

theorem C.oneLine_includeGuard (i : Interface) : OneLine (C.includeGuard i) := by
  have hname := CaseStyle.shouty.oneLine_convert i.name
  dsimp only [C.includeGuard]
  refine oneLine_append.mpr ⟨?_, by decide⟩
  split
  · decide
  · exact hname

theorem C.tidy (config : Config) : (C.sheet config).Tidy (C.backend config) where
  comment := by
    show OneLine "//"
    decide
  atoms := by
    intro a
    show OneLine (AtomTable.c.token a)
    cases a <;> decide
  value := by
    intro d read hnames _
    have hname := Rules.oneLine_apply (Decl.tame_name hnames) .c .type
    show OneLine ((C.sheet config).value read d)
    dsimp only [C.sheet]
    split
    · exact C.oneLine_structTag (Decl.tame_name hnames)
    · exact hname
  body := C.oneLine_body

/-! ## Rust -/

section

variable {d : Decl} {read : TypeRef → String} {layout : Layout}

theorem Rust.oneLine_body {config : Config} (hnames : ∀ name ∈ d.names, Tame name)
    (hreads : ReadsOneLine id d.entity.uses read) :
    ∀ line ∈ (Rust.sheet config).body read layout d, OneLine line.text := by
  have hname : OneLine (Rules.rust.typeName d.name) :=
    Rules.oneLine_apply (Decl.tame_name hnames) .rust .type
  intro line hline
  dsimp only [Rust.sheet] at hline
  cases he : d.entity with
  | aliasOf target =>
      have hread : OneLine (read target) := Entity.forall_target he hreads.refs
      rw [he, List.mem_singleton] at hline
      subst hline
      simp only [Rust.aliasLine, oneLine_append, hread, hname, and_true]
      decide
  | struct members =>
      simp only [he, Rust.structLines, List.mem_append, List.mem_map, List.mem_cons,
        List.not_mem_nil, or_false] at hline
      rcases hline with ((rfl | rfl) | ⟨member, hm, rfl⟩) | rfl
      · decide
      · simp only [oneLine_append, hname, and_true]
        decide
      · have hread : OneLine (read member.type) := Entity.forall_members he hreads.refs member hm
        have hfield : OneLine (Rules.rust.fieldName member.name) :=
          Rules.oneLine_apply (Decl.tame_members he hnames member hm) .rust .field
        simp only [Rust.memberLine, oneLine_append, hread, hfield, and_true]
        decide
      · decide
  | enum variants =>
      have hread : OneLine (read (.atom config.discriminant.val)) := hreads.atoms _
      simp only [he, Rust.enumLines, List.mem_append, List.mem_map, List.mem_cons,
        List.not_mem_nil, or_false] at hline
      rcases hline with ((rfl | rfl | rfl) | ⟨variant, hv, rfl⟩) | rfl
      · simp only [oneLine_append, hread, and_true]
        decide
      · decide
      · simp only [oneLine_append, hname, and_true]
        decide
      · have hvariant : OneLine (Rules.rust.variantName variant) :=
          Rules.oneLine_apply (Decl.tame_variants he hnames variant hv) .rust .variant
        simp only [Rust.variantLine, oneLine_append, hvariant, true_and]
        decide
      · decide
  | function args result =>
      rw [he] at hline
      cases hline
  | foreign text =>
      rw [he] at hline
      cases hline

end

theorem Rust.tidy (config : Config) : (Rust.sheet config).Tidy (Rust.backend config) where
  comment := by
    show OneLine "///"
    decide
  atoms := by
    intro a
    show OneLine (AtomTable.rust.token a)
    cases a <;> decide
  value := by
    intro d read hnames _
    exact Rules.oneLine_apply (Decl.tame_name hnames) .rust .type
  body := Rust.oneLine_body

/-! ## LLVM -/

namespace Ir

theorem oneLine_register_iff (scope : NameScope) (base : String) :
    OneLine (scope.register base).1 ↔ OneLine base := by
  unfold NameScope.register
  split
  · simp only [numbered, oneLine_append, oneLine_toString, and_true]
    exact and_iff_left (by decide)
  · rfl

theorem oneLine_registerAll_iff (scope : NameScope) (bases : List String) :
    (∀ name ∈ (scope.registerAll bases).1, OneLine name) ↔ ∀ base ∈ bases, OneLine base := by
  induction bases generalizing scope with
  | nil => exact Iff.rfl
  | cons base bases ih =>
      simp only [NameScope.registerAll, List.forall_mem_cons, oneLine_register_iff, ih]

theorem length_registerAll (scope : NameScope) (bases : List String) :
    (scope.registerAll bases).1.length = bases.length := by
  induction bases generalizing scope with
  | nil => rfl
  | cons base bases ih => simp only [NameScope.registerAll, List.length_cons, ih]

/-- A number adds no line break to a name. -/
theorem oneLine_argumentNames_iff {asked : List String} :
    (∀ name ∈ argumentNames asked, OneLine name) ↔ ∀ name ∈ asked, OneLine name :=
  oneLine_registerAll_iff _ asked

end Ir

section

variable {d : Decl} {read : TypeRef → Ir.IrType} {layout : Layout}

theorem Llvm.oneLine_typeLine {type : Ir.IrType} (hname : Tame d.name)
    (h : OneLine type.text) : OneLine (Llvm.typeLine d type).text := by
  have htype : OneLine (Rules.llvm.typeName d.name) := Rules.oneLine_apply hname .llvm .type
  simp only [Llvm.typeLine, oneLine_append, h, htype, and_true]
  decide

theorem Llvm.oneLine_structLines {members : List Field} (hname : Tame d.name)
    (hreads : ∀ member ∈ members, OneLine (read member.type).text) :
    ∀ line ∈ Llvm.structLines read layout d members, OneLine line.text := by
  have helements : OneLine (", ".intercalate
      ((Llvm.structElements read members).map Ir.IrType.text)) := by
    refine .intercalate (by decide) (List.forall_mem_map.mpr ?_)
    exact List.forall_mem_map.mpr hreads
  have hquoted : OneLine (Ir.quotedName (Rules.llvm.typeName d.name)) :=
    Ir.oneLine_quotedName (Rules.oneLine_apply hname .llvm .type)
  intro line hline
  simp only [Llvm.structLines, List.mem_cons, List.not_mem_nil, or_false] at hline
  rcases hline with rfl | rfl
  · simp only [Llvm.structLine, Ir.IrType.text, oneLine_append, helements, hquoted, and_true]
    decide
  · dsimp only [Llvm.sizeLine]
    simp only [oneLine_append, oneLine_toString, and_true]
    decide

theorem Llvm.oneLine_variantLine {type : Ir.IrType} {variant : String × Nat}
    (hname : Tame d.name) (htype : OneLine type.text) (hvariant : Tame variant.1) :
    OneLine (Llvm.variantLine d type variant).text := by
  have htypeName : OneLine (Rules.llvm.typeName d.name) := Rules.oneLine_apply hname .llvm .type
  have hvariantName : OneLine (Rules.llvm.variantName variant.1) :=
    Rules.oneLine_apply hvariant .llvm .variant
  have hglobal : OneLine (Llvm.variantGlobal d variant.1) := by
    simp only [Llvm.variantGlobal, oneLine_append, htypeName, hvariantName, true_and, and_true]
    decide
  dsimp only [Llvm.variantLine]
  simp only [oneLine_append, Ir.oneLine_quotedName hglobal, htype, oneLine_toString, and_true]
  decide

theorem Llvm.oneLine_functionLine {name : String} {result : Ir.IrType}
    {args : List (Ir.IrType × String)} (hname : OneLine name) (hresult : OneLine result.text)
    (hargs : ∀ arg ∈ args, OneLine arg.1.text ∧ OneLine arg.2) :
    OneLine (Llvm.functionLine name result args) := by
  dsimp only [Llvm.functionLine]
  refine oneLine_append.mpr ⟨oneLine_append.mpr ⟨?_, ?_⟩, by decide⟩
  · simp only [oneLine_append, hresult, Ir.oneLine_quotedName hname, and_true]
    decide
  · refine .intercalate (by decide) (List.forall_mem_map.mpr ?_)
    rintro ⟨type, name⟩ harg
    obtain ⟨htype, hlocal⟩ := hargs _ harg
    simp only [oneLine_append, htype, Ir.oneLine_quotedName hlocal, true_and, and_true]
    decide

theorem Llvm.oneLine_prototypeLine {args : List Field} {result : Option TypeRef}
    (hname : Tame d.name) (hargs : ∀ arg ∈ args, Tame arg.name)
    (hreads : ∀ arg ∈ args, OneLine (read arg.type).text)
    (hresult : ∀ type, result = some type → OneLine (read type).text) :
    OneLine (Llvm.prototypeLine read d args result).text := by
  have hfront : OneLine ((result.map read).getD .void).text := by
    cases result with
    | none =>
        show OneLine "void"
        decide
    | some type => exact hresult type rfl
  have hlocals : ∀ name ∈ Ir.argumentNames (args.map fun arg => Rules.llvm.fieldName arg.name),
      OneLine name :=
    Ir.oneLine_argumentNames_iff.mpr (List.forall_mem_map.mpr fun arg harg =>
      Rules.oneLine_apply (hargs arg harg) .llvm .field)
  refine Llvm.oneLine_functionLine (Rules.oneLine_apply hname .llvm .function) hfront ?_
  rintro ⟨type, name⟩ hmem
  obtain ⟨htypes, hnames⟩ := List.of_mem_zip hmem
  obtain ⟨arg, harg, rfl⟩ := List.mem_map.mp htypes
  exact ⟨hreads arg harg, hlocals name hnames⟩

theorem Llvm.oneLine_body {config : Config} (hnames : ∀ name ∈ d.names, Tame name)
    (hreads : ReadsOneLine Ir.IrType.text d.entity.uses read) :
    ∀ line ∈ (Llvm.sheet config).body read layout d, OneLine line.text := by
  have hname := Decl.tame_name hnames
  intro line hline
  dsimp only [Llvm.sheet] at hline
  cases he : d.entity with
  | aliasOf target =>
      rw [he, List.mem_singleton] at hline
      subst hline
      exact Llvm.oneLine_typeLine hname
        (Entity.forall_target he hreads.refs)
  | struct members =>
      rw [he] at hline
      exact Llvm.oneLine_structLines hname (Entity.forall_members he hreads.refs) line hline
  | enum variants =>
      have hread : OneLine (read (.atom config.discriminant.val)).text := hreads.atoms _
      simp only [he, Llvm.enumLines, List.mem_cons, List.mem_map] at hline
      rcases hline with rfl | ⟨variant, hv, rfl⟩
      · exact Llvm.oneLine_typeLine hname hread
      · exact Llvm.oneLine_variantLine hname hread
          (Decl.tame_variants he hnames _ (List.fst_mem_of_mem_zipIdx hv))
  | function args result =>
      rw [he, List.mem_singleton] at hline
      subst hline
      exact Llvm.oneLine_prototypeLine hname (Decl.tame_args he hnames)
        (Entity.forall_args he hreads.refs) (Entity.forall_result he hreads.refs)
  | foreign text =>
      rw [he] at hline
      cases hline

end

theorem Llvm.tidy (config : Config) : (Llvm.sheet config).Tidy (Llvm.backend config) where
  comment := by
    show OneLine ";"
    decide
  atoms := by
    intro a
    show OneLine (Ir.IrType.ofAtom a).text
    cases a <;> decide
  value := by
    intro d read hnames hreads
    have hname : OneLine (Rules.llvm.typeName d.name) :=
      Rules.oneLine_apply (Decl.tame_name hnames) .llvm .type
    show OneLine ((Llvm.sheet config).value read d).text
    dsimp only [Llvm.sheet]
    cases he : d.entity with
    | aliasOf target => exact Entity.forall_target he hreads.refs
    | struct members =>
        simp only [Ir.IrType.text, oneLine_append, Ir.oneLine_quotedName hname, and_true]
        decide
    | _ => exact hreads.atoms _
  body := Llvm.oneLine_body

/-! ## All of an interface -/

namespace Interface

variable {i : Interface}

theorem oneLine_fieldsText {fields : List Field} (hnames : ∀ f ∈ fields, OneLine f.name)
    (hrefs : ∀ f ∈ fields, OneLine (i.refText f.type)) : OneLine (i.fieldsText fields) := by
  refine .intercalate (by decide) (List.forall_mem_map.mpr fun f hf => ?_)
  simp only [oneLine_append, hnames f hf, hrefs f hf, true_and, and_true]
  decide

theorem oneLine_braced {keyword parts : String} (hkeyword : OneLine keyword)
    (hparts : OneLine parts) : OneLine (braced keyword parts) := by
  unfold braced
  split
  · simp only [oneLine_append, hkeyword, true_and]
    decide
  · simp only [oneLine_append, hkeyword, hparts, true_and, and_true]
    decide

theorem oneLine_describe {e : Entity} (he : ∀ text, e ≠ .foreign text)
    (hnames : ∀ name ∈ e.names, OneLine name) (hrefs : ∀ type ∈ e.uses, OneLine (i.refText type)) :
    OneLine (i.describe e) := by
  unfold describe
  cases e with
  | aliasOf target =>
      simp only [oneLine_append, Entity.forall_target rfl hrefs, and_true]
      decide
  | struct members =>
      exact oneLine_braced (by decide) (oneLine_fieldsText (List.forall_mem_map.mp hnames)
        (Entity.forall_members rfl hrefs))
  | enum variants => exact oneLine_braced (by decide) (.intercalate (by decide) hnames)
  | function args result =>
      have hargs : OneLine (i.fieldsText args) :=
        oneLine_fieldsText (List.forall_mem_map.mp hnames) (Entity.forall_args rfl hrefs)
      cases result with
      | none =>
          simp only [oneLine_append, hargs, and_true]
          decide
      | some type =>
          have htype := Entity.forall_result rfl hrefs type rfl
          simp only [oneLine_append, hargs, htype, and_true]
          decide
  | foreign text => exact (he text rfl).elim

end Interface

namespace Sheet

variable {sh : Sheet V S} {b : Backend V S} {i : Interface} {t : Session V S}

/-- What types resolve to is written without a line break. -/
theorem Finished.oneLine_value (htidy : sh.Tidy b) (h : sh.Finished b i t)
    (hordered : i.Ordered b.refs) (hshown : i.ShownOneLine) :
    ∀ d ∈ i.decls, d.entity.isType = true →
      OneLine (b.valueText (sh.value (t.defined.reading b.atomType) d)) := by
  refine hordered.induction fun d hd hrefs htype => ?_
  have hemits : b.emits d = true := by
    simp [Backend.emits, Entity.isFunction_eq_false_of_isType htype]
  have hknown := h.known d (List.mem_filter.mpr ⟨hd, hemits⟩)
  rw [Backend.refs_of_emits hemits] at hrefs
  have hshownd := hshown d hd (Entity.isFunction_eq_false_of_isType htype)
  refine htidy.value (fun name hname => .inr (hshownd name hname)) ?_
  refine ⟨htidy.atoms, fun type htype => ?_⟩
  cases type with
  | atom a => exact htidy.atoms a
  | decl id =>
      obtain ⟨d', hd', rfl, htype', hline⟩ := hrefs id htype
      have hget := h.value d' hd' htype'
      simpa [Registry.reading, Registry.resolve, hget] using hline htype'
  | foreign text => exact (hknown _ htype).elim

theorem Finished.oneLine_piece (htidy : sh.Tidy b) (h : sh.Finished b i t) (hi : i.Distinct)
    (hordered : i.Ordered b.refs) (hshown : i.ShownOneLine) {d : Decl}
    (hd : d ∈ i.decls.filter b.emits) (htame : ∀ name ∈ d.names, Tame name) :
    ∀ line ∈ sh.piece b i d (t.defined.reading b.atomType), OneLine line.text := by
  obtain ⟨hmem, hemits⟩ := List.mem_filter.mp hd
  have hreads : ReadsOneLine b.valueText d.entity.uses (t.defined.reading b.atomType) := by
    refine ⟨htidy.atoms, fun type htype => ?_⟩
    have hknown := h.known d hd type htype
    cases type with
    | atom a => exact htidy.atoms a
    | decl id =>
        obtain ⟨d', hd', rfl, htype'⟩ := h.declared hknown
        have hline := h.oneLine_value htidy hordered hshown d' hd' htype'
        have hget := h.value d' hd' htype'
        simpa [Registry.reading, Registry.resolve, hget] using hline
    | foreign text => exact hknown.elim
  have hrefs : ∀ type ∈ d.entity.uses, OneLine (i.refText type) := by
    intro type htype
    have hknown := h.known d hd type htype
    cases type with
    | atom a =>
        show OneLine a.text
        cases a <;> decide
    | decl id =>
        obtain ⟨d', hd', rfl, htype'⟩ := h.declared hknown
        rw [Interface.refText, Interface.nameOf, Interface.get?_of_mem hi hd']
        exact hshown d' hd' (Entity.isFunction_eq_false_of_isType htype') _ List.mem_cons_self
    | foreign text => exact hknown.elim
  have hnative := (Backend.covers_iff hemits).mp (h.covered d hd)
  intro line hline
  rcases List.mem_append.mp hline with hline | hline
  · obtain ⟨hfunction, rfl⟩ := Backend.mem_header.mp hline
    obtain ⟨hname, hnames⟩ := List.forall_mem_cons.mp (hshown d hmem hfunction)
    simp only [Backend.headerLine, oneLine_append, htidy.comment, hname,
      Interface.oneLine_describe hnative hnames hrefs, true_and, and_true]
    decide
  · exact htidy.body htame hreads line hline

end Sheet

end HostDecl
