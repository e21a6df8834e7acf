import HostDecl.Proofs.Generate.Pieces
import HostDecl.Proofs.Layout.DataLayout
import Mathlib.Algebra.BigOperators.Group.List.Basic
import Mathlib.Algebra.GroupWithZero.Nat

/-!
# How many lines a text has

A declaration takes a number of lines that depends on its kind and on how many members, variants or
arguments it has (`Host.height`). A text has that many line breaks for all declarations together and
for what frames them, and on top of these only the line breaks of names: a comment shows names as
they are declared, and a name without a letter or digit is spelled as it is declared. So two
interfaces of one shape have texts with as many lines, unless a line break in a name gets into one
of them (`lines_told_by_shape`).
-/

namespace HostDecl

variable {V S : Type}

/-! ## Sums -/

/-- What counts nothing can be left out of a sum. -/
theorem sum_map_filter {α : Type} {p : α → Bool} {f : α → Nat} {xs : List α}
    (h : ∀ x ∈ xs, p x = false → f x = 0) : ((xs.filter p).map f).sum = (xs.map f).sum := by
  induction xs with
  | nil => rfl
  | cons x xs ih =>
      obtain ⟨hx, hxs⟩ := List.forall_mem_cons.mp h
      cases hp : p x with
      | false => rw [List.filter_cons_of_neg (by simp [hp]), ih hxs, List.map_cons, List.sum_cons,
          hx hp, Nat.zero_add]
      | true => rw [List.filter_cons_of_pos hp, List.map_cons, List.sum_cons, ih hxs, List.map_cons,
          List.sum_cons]

/-! ## Line breaks -/

/-- How many line breaks a text has. -/
def newlines (text : String) : Nat :=
  text.toList.count '\n'

theorem newlines_append (a b : String) : newlines (a ++ b) = newlines a + newlines b := by
  simp [newlines]

theorem newlines_eq_zero_iff {text : String} : newlines text = 0 ↔ OneLine text :=
  List.count_eq_zero

theorem newlines_of_oneLine {text : String} (h : OneLine text) : newlines text = 0 :=
  newlines_eq_zero_iff.mpr h

theorem newlines_join (texts : List String) :
    newlines (String.join texts) = (texts.map newlines).sum := by
  induction texts with
  | nil => rfl
  | cons text texts ih => rw [String.join_cons, newlines_append, ih, List.map_cons, List.sum_cons]

theorem newlines_shown (line : Line) : newlines line.shown = newlines line.text := by
  have hmargin : OneLine ({ depth := line.depth } : Writer).margin := by
    simp [Writer.margin, OneLine]
  rw [Line.shown, newlines_append, newlines_of_oneLine hmargin, Nat.zero_add]

/-- The line breaks inside of lines, their ends left out. -/
def innerBreaks (lines : List Line) : Nat :=
  (lines.map fun line => newlines line.text).sum

@[simp] theorem innerBreaks_nil : innerBreaks [] = 0 := rfl

@[simp] theorem innerBreaks_cons (line : Line) (lines : List Line) :
    innerBreaks (line :: lines) = newlines line.text + innerBreaks lines := rfl

theorem innerBreaks_eq_zero_iff {lines : List Line} :
    innerBreaks lines = 0 ↔ ∀ line ∈ lines, OneLine line.text := by
  rw [innerBreaks, List.sum_eq_zero_iff_forall_eq_nat, List.forall_mem_map]
  simp only [newlines_eq_zero_iff]

theorem newlines_linesText (lines : List Line) :
    newlines (linesText (lines.map Line.shown)) = lines.length + innerBreaks lines := by
  induction lines with
  | nil => rfl
  | cons line lines ih =>
      have hend : newlines "\n" = 1 := rfl
      rw [List.map_cons, linesText_cons, newlines_append, newlines_append, newlines_shown, hend, ih,
        innerBreaks_cons, List.length_cons]
      omega

theorem newlines_blockText (lines : List Line) :
    newlines (blockText lines) = lines.length + 1 + innerBreaks lines := by
  have hend : newlines "\n" = 1 := rfl
  rw [blockText, newlines_append, newlines_linesText, hend]
  omega

/-! ## Shapes -/

/-- The kind of an entity, and how many members, variants or arguments it has. -/
def Entity.shape (e : Entity) : String × Nat :=
  (e.kind, e.names.length)

/-- The shapes of all declarations, in order. -/
def Interface.shape (i : Interface) : List (String × Nat) :=
  i.decls.map fun d => d.entity.shape

namespace Host

/-- The lines that a declaration takes if no name brings in more: with its comment, and with the
blank line behind it. -/
def height (host : Host) (e : Entity) : Nat :=
  match e with
  | .aliasOf _ => 3
  | .struct members =>
    match host with
    | .rust => members.length + 5
    | .c => 2 * members.length + 6
    | .llvm => 4
  | .enum variants =>
    match host with
    | .rust => variants.length + 6
    | .c => variants.length + 5
    | .llvm => variants.length + 3
  | .function .. => if host.emitsFunctions then 2 else 0
  | .foreign _ => 0

theorem height_congr (host : Host) {e e' : Entity} (h : e.shape = e'.shape) :
    host.height e = host.height e' := by
  cases e <;> cases e' <;> simp_all [Entity.shape, Entity.kind, Entity.names, height]

/-- The lines that frame the declarations of an interface if its name brings in no more. -/
def frame (host : Host) (config : Config) : Nat :=
  match host with
  | .rust => 0
  | .c => newlines config.target.triple + 9
  | .llvm => newlines config.target.triple + 4

end Host

namespace Interface

/-- The lines of an interface's text if no name brings in more. -/
def height (i : Interface) (host : Host) (config : Config) : Nat :=
  host.frame config + (i.decls.map fun d => host.height d.entity).sum

theorem height_congr {i i' : Interface} (h : i.shape = i'.shape) (host : Host) (config : Config) :
    i.height host config = i'.height host config := by
  have hshapes : List.Forall₂ (fun d d' : Decl => d.entity.shape = d'.entity.shape)
      i.decls i'.decls := by
    rw [shape, shape, ← List.forall₂_eq_eq_eq] at h
    exact List.forall₂_map_right_iff.mp (List.forall₂_map_left_iff.mp h)
  rw [height, height, map_eq_map_of_forall₂ (hshapes.imp fun _ _ => host.height_congr)]

/-- No line break of a name gets into the text for the host. A banner shows the name of the
interface and comments show those of types as they are declared; functions have no comment, and
their names are only spelled. -/
structure InLines (i : Interface) (host : Host) : Prop where
  banner : host ≠ .rust → OneLine i.name
  shown : i.ShownOneLine
  spelled : host.emitsFunctions = true → ∀ d ∈ i.functions, ∀ name ∈ d.names, Tame name

instance (i : Interface) (host : Host) : Decidable (i.InLines host) :=
  have : Decidable i.ShownOneLine := inferInstanceAs (Decidable (∀ d ∈ i.decls, _ → _))
  decidable_of_iff ((host ≠ .rust → OneLine i.name) ∧ i.ShownOneLine ∧
      (host.emitsFunctions = true → ∀ d ∈ i.functions, ∀ name ∈ d.names, Tame name))
    ⟨fun ⟨hb, hs, hf⟩ => ⟨hb, hs, hf⟩, fun ⟨hb, hs, hf⟩ => ⟨hb, hs, hf⟩⟩

/-! ## Names in comments -/

variable {i : Interface}

theorem oneLine_of_fieldsText {fields : List Field} (h : OneLine (i.fieldsText fields)) :
    ∀ name ∈ fields.map Field.name, OneLine name := by
  refine List.forall_mem_map.mpr fun f hf => ?_
  have htext := h.of_mem_intercalate (List.mem_map.mpr ⟨f, hf, rfl⟩)
  simp only [oneLine_append] at htext
  exact htext.1.1

theorem oneLine_of_braced {keyword parts : String} (h : OneLine (braced keyword parts)) :
    OneLine parts := by
  unfold braced at h
  split at h
  · rename_i hempty
    rw [String.isEmpty_iff.mp hempty]
    decide
  · simp only [oneLine_append] at h
    exact h.1.2

/-- A description shows every name of what it describes. -/
theorem oneLine_of_describe {e : Entity} (h : OneLine (i.describe e)) :
    ∀ name ∈ e.names, OneLine name := by
  cases e with
  | struct members => exact oneLine_of_fieldsText (oneLine_of_braced h)
  | enum variants => exact fun name hname => (oneLine_of_braced h).of_mem_intercalate hname
  | function args result =>
      simp only [describe, oneLine_append] at h
      exact oneLine_of_fieldsText h.1.1.2
  | aliasOf target => exact fun _ hname => absurd hname List.not_mem_nil
  | foreign text => exact fun _ hname => absurd hname List.not_mem_nil

end Interface

/-! ## Sheets -/

namespace Sheet

variable {sh : Sheet V S} {name : String}

theorem newlines_prelude : newlines (sh.prelude name) =
    ((sh.opening name).map fun lines => lines.length + 1 + innerBreaks lines).sum := by
  rw [prelude, newlines_join, List.map_map]
  exact congrArg List.sum (List.map_congr_left fun lines _ => newlines_blockText lines)

theorem newlines_epilogue : newlines (sh.epilogue name) =
    (sh.closing name).length + innerBreaks (sh.closing name) :=
  newlines_linesText _

end Sheet

/-- Every declaration takes as many lines as its shape calls for, and every name of a function gets
into a line as it is spelled. The frame shows the name of the interface once, if at all. -/
structure Sheet.Ruled (sh : Sheet V S) (b : Backend V S) : Prop where
  frame : ∀ name, newlines (sh.prelude name) + newlines (sh.epilogue name) =
    b.host.frame b.config + if b.host = .rust then 0 else newlines name
  height : ∀ {d layout} read, b.Covers d →
    (∀ members, d.entity = .struct members → layout.offsets.length = members.length) →
    (sh.body read layout d).length + (if d.entity.isFunction then 1 else 2) =
      b.host.height d.entity
  spelled : ∀ {d} read layout, b.Covers d → d.entity.isFunction = true →
    (∀ line ∈ sh.body read layout d, OneLine line.text) → ∀ name ∈ d.names, Tame name

theorem Decl.names_function {d : Decl} {args : List Field} {result : Option TypeRef}
    (he : d.entity = .function args result) : d.names = d.name :: args.map Field.name := by
  rw [Decl.names, he]
  rfl

theorem Host.height_of_not_emits {host : Host} {d : Decl} (h : host.emits d = false) :
    host.height d.entity = 0 := by
  obtain ⟨hhost, hfunction⟩ : host.emitsFunctions = false ∧ d.entity.isFunction = true := by
    simpa [Host.emits] using h
  cases he : d.entity <;> simp_all [Host.height, Entity.isFunction]

theorem Backend.length_header (b : Backend V S) (i : Interface) (d : Decl) :
    (b.header i d).length = if d.entity.isFunction then 0 else 1 := by
  unfold Backend.header
  split <;> rfl

namespace Sheet

variable {sh : Sheet V S} {b : Backend V S} {i : Interface} {t : Session V S}

/-- A session has written the lines that the shape of its interface calls for, and the line breaks
of names on top. -/
theorem Finished.newlines_text (hr : sh.Ruled b) (h : sh.Finished b i t) (hi : i.Distinct) :
    newlines t.page.text = i.height b.host b.config +
      ((if b.host = .rust then 0 else newlines i.name) +
        ((i.decls.filter b.emits).map fun d =>
          innerBreaks (sh.piece b i d (t.defined.reading b.atomType))).sum) := by
  have hpiece : ∀ d ∈ i.decls.filter b.emits,
      newlines (blockText (sh.piece b i d (t.defined.reading b.atomType))) =
        b.host.height d.entity +
          innerBreaks (sh.piece b i d (t.defined.reading b.atomType)) := by
    intro d hd
    have hmem := (List.mem_filter.mp hd).1
    have hoffsets : ∀ members, d.entity = .struct members →
        (i.layoutOf b.abi d.id).offsets.length = members.length := by
      intro members he
      obtain ⟨layout, hlaid⟩ := h.laidOut d hmem (by simp [he, Entity.isType])
      obtain ⟨layouts, rfl, hlayouts⟩ := hlaid.ofStruct (Interface.get?_of_mem hi hmem) he
      rw [hlaid.layoutOf_eq, Layout.length_offsets_ofMembers, hlayouts.length_eq]
    have hbody := hr.height (t.defined.reading b.atomType) (h.covered d hd) hoffsets
    rw [newlines_blockText, ← hbody, piece, List.length_append, Backend.length_header]
    split <;> omega
  have hheights : ((i.decls.filter b.emits).map fun d => b.host.height d.entity).sum =
      (i.decls.map fun d => b.host.height d.entity).sum :=
    sum_map_filter fun d _ hd => Host.height_of_not_emits hd
  have hframe := hr.frame i.name
  rw [h.text, newlines_append, newlines_append, newlines_join, List.map_map, Function.comp_def,
    List.map_congr_left hpiece, List.sum_map_add, hheights, Interface.height]
  omega

/-- The lines of all declarations are free of line breaks exactly if the names that they show are:
as they are declared in comments, and as they are spelled where there is no comment. -/
theorem Finished.innerBreaks_eq_zero_iff (htidy : sh.Tidy b) (hr : sh.Ruled b)
    (h : sh.Finished b i t) (hi : i.Distinct) (hordered : i.Ordered b.refs) :
    ((i.decls.filter b.emits).map fun d =>
        innerBreaks (sh.piece b i d (t.defined.reading b.atomType))).sum = 0 ↔
      i.ShownOneLine ∧
        (b.host.emitsFunctions = true → ∀ d ∈ i.functions, ∀ name ∈ d.names, Tame name) := by
  rw [List.sum_eq_zero_iff_forall_eq_nat, List.forall_mem_map]
  simp only [HostDecl.innerBreaks_eq_zero_iff]
  constructor
  · intro hlines
    constructor
    · intro d hd hfunction
      have hemits : b.emits d = true := by simp [Backend.emits, hfunction]
      have hheader : b.headerLine i d ∈ sh.piece b i d (t.defined.reading b.atomType) := by
        simp [piece, Backend.header, hfunction]
      have hline := hlines d (List.mem_filter.mpr ⟨hd, hemits⟩) _ hheader
      simp only [Backend.headerLine, oneLine_append] at hline
      exact List.forall_mem_cons.mpr ⟨hline.1.1.2, Interface.oneLine_of_describe hline.2⟩
    · intro hhost d hd
      obtain ⟨hmem, hfunction⟩ := List.mem_filter.mp hd
      have hemits : d ∈ i.decls.filter b.emits :=
        List.mem_filter.mpr ⟨hmem, by simp [Backend.emits, hhost]⟩
      refine hr.spelled (t.defined.reading b.atomType) (i.layoutOf b.abi d.id)
        (h.covered d hemits) hfunction fun line hline => ?_
      exact hlines d hemits line (List.mem_append_right _ hline)
  · rintro ⟨hshown, hspelled⟩ d hd
    obtain ⟨hmem, hemits⟩ := List.mem_filter.mp hd
    refine h.oneLine_piece htidy hi hordered hshown hd ?_
    cases hfunction : d.entity.isFunction with
    | false => exact fun name hname => .inr (hshown d hmem hfunction name hname)
    | true =>
        have hhost : b.host.emitsFunctions = true := by
          simpa [Backend.emits, hfunction] using hemits
        exact hspelled hhost d (List.mem_filter.mpr ⟨hmem, hfunction⟩)

/-- A text has at least the lines of its interface's shape, and it has no more exactly if no line
break of a name gets into it. -/
theorem Describes.newlines_generate (hsh : sh.Describes b) (htidy : sh.Tidy b) (hr : sh.Ruled b)
    (hi : i.Distinct) {skipUnsupported : Bool} {reporter : Reporter} {text : String}
    (h : (b.generate i skipUnsupported reporter).1 = .ok text) :
    i.height b.host b.config ≤ newlines text ∧
      (newlines text = i.height b.host b.config ↔ i.InLines b.host) := by
  obtain ⟨t, ht, rfl⟩ := Backend.generate_eq_ok_iff.mp h
  have hend := hsh.finished hi ht
  have hordered := ((hsh.run_succeeds_iff hi).mp ⟨t, ht⟩).2.ordered
  have hbanner : (if b.host = .rust then 0 else newlines i.name) = 0 ↔
      (b.host ≠ .rust → OneLine i.name) := by
    split
    · rename_i hhost
      exact ⟨fun _ hne => (hne hhost).elim, fun _ => rfl⟩
    · rename_i hhost
      rw [newlines_eq_zero_iff]
      exact ⟨fun hname _ => hname, fun hname => hname hhost⟩
  have hpieces := hend.innerBreaks_eq_zero_iff htidy hr hi hordered
  rw [hend.newlines_text hr hi]
  refine ⟨Nat.le_add_right _ _, ?_⟩
  rw [Nat.add_eq_left, Nat.add_eq_zero_iff, hbanner, hpieces]
  exact ⟨fun ⟨hb, hs, hf⟩ => ⟨hb, hs, hf⟩, fun ⟨hb, hs, hf⟩ => ⟨hb, hs, hf⟩⟩

end Sheet

/-! ## C -/

namespace C

variable {config : Config} {d : Decl} {read : TypeRef → String}

theorem frame (config : Config) (name : String) :
    newlines ((sheet config).prelude name) + newlines ((sheet config).epilogue name) =
      Host.c.frame config + newlines name := by
  have hguard := newlines_of_oneLine (oneLine_includeGuard { name, decls := [] })
  rw [Sheet.newlines_prelude, Sheet.newlines_epilogue, Host.frame]
  simp (disch := decide) only [sheet, List.map_cons, List.map_nil, List.sum_cons, List.sum_nil,
    List.length_cons, List.length_nil, innerBreaks_cons, innerBreaks_nil, newlines_append, hguard,
    newlines_of_oneLine]
  omega

theorem spelled_of_functionLine {args : List Field} {result : Option TypeRef}
    (he : d.entity = .function args result)
    (h : OneLine (functionLine read d args result).text) : ∀ name ∈ d.names, Tame name := by
  simp only [functionLine, oneLine_append] at h
  obtain ⟨⟨⟨⟨-, hname⟩, -⟩, hparams⟩, -⟩ := h
  rw [Decl.names_function he, List.forall_mem_cons, List.forall_mem_map]
  refine ⟨(Rules.oneLine_apply_iff .c .function).mp hname, fun arg harg => ?_⟩
  have hparam : paramText read arg ∈ args.map (paramText read) := List.mem_map.mpr ⟨arg, harg, rfl⟩
  rw [if_neg (by simpa using List.ne_nil_of_mem harg)] at hparams
  have htext := hparams.of_mem_intercalate hparam
  simp only [paramText, oneLine_append] at htext
  exact (Rules.oneLine_apply_iff .c .field).mp htext.2

theorem ruled (config : Config) : (sheet config).Ruled (backend config) where
  frame name := frame config name
  height := by
    intro d layout read hcover hoffsets
    show ((sheet config).body read layout d).length + _ = Host.c.height d.entity
    dsimp only [sheet]
    cases he : d.entity with
    | aliasOf target => rfl
    | struct members =>
        have hlen := hoffsets members he
        simp [structLines, assertLines, hlen, Host.height, Entity.isFunction]
        omega
    | enum variants => simp [enumLines, Host.height, Entity.isFunction]
    | function args result => rfl
    | foreign text => simp [Backend.Covers, he, Entity.isType, Entity.isFunction] at hcover
  spelled := by
    intro d read layout _ hfunction hlines
    cases he : d.entity with
    | function args result =>
        dsimp only [sheet] at hlines
        rw [he, List.forall_mem_singleton] at hlines
        exact spelled_of_functionLine he hlines
    | _ => simp [he, Entity.isFunction] at hfunction

end C

/-! ## Rust -/

namespace Rust

theorem ruled (config : Config) : (sheet config).Ruled (backend config) where
  frame _ := rfl
  height := by
    intro d layout read hcover _
    show ((sheet config).body read layout d).length + _ = Host.rust.height d.entity
    dsimp only [sheet]
    cases he : d.entity with
    | aliasOf target => rfl
    | struct members => simp [structLines, Host.height, Entity.isFunction]
    | enum variants => simp [enumLines, Host.height, Entity.isFunction]
    | _ =>
        simp [Backend.Covers, he, Entity.isType, Entity.isFunction, backend, Host.emitsFunctions]
          at hcover
  spelled := by
    intro d read layout hcover hfunction
    rcases hcover with htype | ⟨-, hhost⟩
    · rw [Entity.isFunction_eq_false_of_isType htype] at hfunction
      cases hfunction
    · cases hhost

end Rust

/-! ## LLVM -/

namespace Llvm

open Ir

variable {config : Config} {d : Decl} {read : TypeRef → IrType}

theorem frame (config : Config) (name : String) :
    newlines ((sheet config).prelude name) + newlines ((sheet config).epilogue name) =
      Host.llvm.frame config + newlines name := by
  have hlayout : newlines config.target.arch.dataLayout = 0 := by
    refine newlines_of_oneLine ?_
    cases config.target.arch <;> decide +kernel
  rw [Sheet.newlines_prelude, Sheet.newlines_epilogue, Host.frame]
  simp (disch := decide) only [sheet, List.map_cons, List.map_nil, List.sum_cons, List.sum_nil,
    List.length_cons, List.length_nil, innerBreaks_cons, innerBreaks_nil, newlines_append, hlayout,
    newlines_of_oneLine]
  omega

theorem oneLine_of_functionLine {name : String} {result : IrType} {args : List (IrType × String)}
    (h : OneLine (functionLine name result args)) : OneLine name ∧ ∀ arg ∈ args, OneLine arg.2 := by
  simp only [functionLine, oneLine_append, oneLine_quotedName_iff] at h
  obtain ⟨⟨⟨⟨-, hname⟩, -⟩, hparams⟩, -⟩ := h
  refine ⟨hname, fun arg harg => ?_⟩
  have htext := hparams.of_mem_intercalate (List.mem_map.mpr ⟨arg, harg, rfl⟩)
  simp only [oneLine_append, oneLine_quotedName_iff] at htext
  exact htext.2

theorem spelled_of_prototypeLine {args : List Field} {result : Option TypeRef}
    (he : d.entity = .function args result)
    (h : OneLine (prototypeLine read d args result).text) : ∀ name ∈ d.names, Tame name := by
  obtain ⟨hname, hargs⟩ := oneLine_of_functionLine h
  rw [Decl.names_function he, List.forall_mem_cons, List.forall_mem_map]
  refine ⟨(Rules.oneLine_apply_iff .llvm .function).mp hname, ?_⟩
  have hlen : (argumentNames (args.map fun arg => Rules.llvm.fieldName arg.name)).length ≤
      (args.map fun arg => read arg.type).length := by
    simp [argumentNames, length_registerAll]
  have hlocals := List.forall_mem_map.mpr hargs
  rw [List.map_snd_zip hlen, oneLine_argumentNames_iff] at hlocals
  intro arg harg
  exact (Rules.oneLine_apply_iff .llvm .field).mp (hlocals _ (List.mem_map.mpr ⟨arg, harg, rfl⟩))

theorem ruled (config : Config) : (sheet config).Ruled (backend config) where
  frame name := frame config name
  height := by
    intro d layout read hcover _
    show ((sheet config).body read layout d).length + _ = Host.llvm.height d.entity
    dsimp only [sheet]
    cases he : d.entity with
    | aliasOf target => rfl
    | struct members => rfl
    | enum variants => simp [enumLines, Host.height, Entity.isFunction]
    | function args result => rfl
    | foreign text => simp [Backend.Covers, he, Entity.isType, Entity.isFunction] at hcover
  spelled := by
    intro d read layout _ hfunction hlines
    cases he : d.entity with
    | function args result =>
        dsimp only [sheet] at hlines
        rw [he, List.forall_mem_singleton] at hlines
        exact spelled_of_prototypeLine he hlines
    | _ => simp [he, Entity.isFunction] at hfunction

end Llvm

/-! ## Texts of one shape -/

/-- The lines of a text are those of the interface's shape, and more exactly if the line break of a
name gets into it. -/
theorem Host.newlines_generate {host : Host} {config : Config} {i : Interface}
    {skipUnsupported : Bool} {reporter : Reporter} {text : String} (hi : i.Distinct)
    (h : (host.generate config i skipUnsupported reporter).1 = .ok text) :
    i.height host config ≤ newlines text ∧
      (newlines text = i.height host config ↔ i.InLines host) := by
  cases host with
  | rust =>
      exact (Rust.describes config).newlines_generate (Rust.tidy config) (Rust.ruled config) hi h
  | c => exact (C.describes config).newlines_generate (C.tidy config) (C.ruled config) hi h
  | llvm =>
      exact (Llvm.describes config).newlines_generate (Llvm.tidy config) (Llvm.ruled config) hi h

/-- Two interfaces of one shape have texts with as many line breaks if no line break of a name gets
into either text. If one gets into the text of only one of the two, this text has more. -/
theorem lines_told_by_shape (host : Host) (config : Config) (i i' : Interface)
    (skipUnsupported skipUnsupported' : Bool) (reporter reporter' : Reporter)
    (text text' : String) (hi : i.Distinct) (hi' : i'.Distinct) (hshape : i.shape = i'.shape)
    (h : (host.generate config i skipUnsupported reporter).1 = .ok text)
    (h' : (host.generate config i' skipUnsupported' reporter').1 = .ok text') :
    (i.InLines host → i'.InLines host → newlines text = newlines text') ∧
    (i.InLines host → ¬ i'.InLines host → newlines text < newlines text') := by
  obtain ⟨-, hiff⟩ := Host.newlines_generate hi h
  obtain ⟨hle', hiff'⟩ := Host.newlines_generate hi' h'
  rw [Interface.height_congr hshape] at hiff
  constructor
  · intro hin hin'
    exact (hiff.mpr hin).trans (hiff'.mpr hin').symm
  · intro hin hout'
    rw [hiff.mpr hin]
    exact Nat.lt_of_le_of_ne hle' fun heq => hout' (hiff'.mp heq.symm)

/-- An interface with one enum, which has one variant. -/
def Interface.single (variant : String) : Interface where
  name := "m"
  decls := [{ id := ⟨0⟩, name := "e", entity := .enum [variant] }]

/-- The line break of a variant gets into the comment about its enum. -/
theorem lines_told_by_shape_single :
    ∃ text text', (Host.rust.generate .linux (.single "ab") false {}).1 = .ok text ∧
      (Host.rust.generate .linux (.single "a\nb") false {}).1 = .ok text' ∧
      newlines text < newlines text' := by
  obtain ⟨text, h⟩ := generates_of_accepted .rust .linux (.single "ab") false {} (by decide)
    (by decide +kernel)
  obtain ⟨text', h'⟩ := generates_of_accepted .rust .linux (.single "a\nb") false {} (by decide)
    (by decide +kernel)
  refine ⟨text, text', h, h', ?_⟩
  exact (lines_told_by_shape .rust .linux (.single "ab") (.single "a\nb") false false {} {} text
    text' (by decide) (by decide) rfl h h').2 (by decide +kernel) (by decide +kernel)

end HostDecl
