import HostDecl.Proofs.Interface.Order
import HostDecl.Proofs.Session.Steps

/-!
# What a backend writes, as data

A backend is a set of actions. Its sheet says what they come to: for a declaration, what it resolves
to, which lines it writes, what the backend keeps of it and which names it takes, all as functions
of what its references read as. `Sheet.Describes` ties the two together: an action succeeds exactly
if the declaration is ready, and then does what the sheet says and nothing else. What follows for
whole runs is shown once, for every backend that has a sheet.
-/

namespace HostDecl

variable {V S : Type}

/-! ## Pieces -/

namespace Session

/-- The session after several blocks, each followed by a break. -/
def printBlocks (s : Session V S) (blocks : List (List Line)) : Session V S :=
  blocks.foldl (fun s lines => (s.print lines).rest) s

@[simp] theorem printBlocks_defined (s : Session V S) (blocks : List (List Line)) :
    (s.printBlocks blocks).defined = s.defined := by
  induction blocks generalizing s with
  | nil => rfl
  | cons lines blocks ih => exact ih _

@[simp] theorem printBlocks_own (s : Session V S) (blocks : List (List Line)) :
    (s.printBlocks blocks).own = s.own := by
  induction blocks generalizing s with
  | nil => rfl
  | cons lines blocks ih => exact ih _

@[simp] theorem printBlocks_sizing (s : Session V S) (blocks : List (List Line)) :
    (s.printBlocks blocks).sizing = s.sizing := by
  induction blocks generalizing s with
  | nil => rfl
  | cons lines blocks ih => exact ih _

/-- Blocks with text, from a break on, add their texts and end at a break. -/
theorem printBlocks_page {s : Session V S} {blocks : List (List Line)}
    (hs : s.page.atBreak = true) (h : ∀ lines ∈ blocks, Inked lines) :
    (s.printBlocks blocks).page =
      { text := s.page.text ++ String.join (blocks.map blockText), atBreak := true } := by
  induction blocks generalizing s with
  | nil =>
      rcases s with ⟨⟨text, atBreak⟩, _, _, _, _, _⟩
      obtain rfl : atBreak = true := hs
      simp [printBlocks]
  | cons lines blocks ih =>
      obtain ⟨hlines, hrest⟩ := List.forall_mem_cons.mp h
      have hpage : ((s.print lines).rest).page =
          { text := s.page.text ++ blockText lines, atBreak := true } :=
        hlines.endBlock_print s.page
      rw [printBlocks, List.foldl_cons, ← printBlocks, ih (by rw [hpage]) hrest, hpage]
      simp [String.append_assoc]

end Session

namespace Backend

variable (b : Backend V S) (i : Interface) (d : Decl)

/-- A run has something to write for the declaration. -/
def emits : Bool :=
  b.host.emitsFunctions || !d.entity.isFunction

/-- The backend has an operation for declarations of this kind. -/
def Covers : Prop :=
  d.entity.isType = true ∨ d.entity.isFunction = true ∧ b.host.emitsFunctions = true

/-- The comment that describes a declaration. -/
def headerLine : Line where
  text := b.comment ++ " " ++ d.name ++ ": " ++ i.describe d.entity

/-- The comments in front of a declaration: functions have none. -/
def header : List Line :=
  if d.entity.isFunction then [] else [b.headerLine i d]

variable {b i d} in
theorem mem_header {line : Line} :
    line ∈ b.header i d ↔ d.entity.isFunction = false ∧ line = b.headerLine i d := by
  unfold header
  split <;> rename_i hfunction <;> simp [hfunction]

/-- A declaration with the comments in front of it. -/
def emitPiece : Emission V S Unit := do
  if d.entity.isFunction then
    b.emitDecl i d
  else
    b.emitHeader i d
    b.emitDecl i d

theorem Covers.emits {b : Backend V S} {d : Decl} (h : b.Covers d) : b.emits d = true := by
  rcases h with h | ⟨-, h⟩
  · simp [Backend.emits, Entity.isFunction_eq_false_of_isType h]
  · simp [Backend.emits, h]

theorem covers_iff {b : Backend V S} {d : Decl} (h : b.emits d = true) :
    b.Covers d ↔ ∀ text, d.entity ≠ .foreign text := by
  unfold Covers
  cases he : d.entity <;> simp_all [emits, Entity.isType, Entity.isFunction]

/-- In front of a declaration, the comments change only what is written. -/
theorem yields_emitPiece {b : Backend V S} {i : Interface} {d : Decl} {s t : Session V S}
    (hs : s.page.atBreak = true) :
    Yields (b.emitPiece i d) s () t ↔
      Yields (b.emitDecl i d) (s.print (b.header i d)) () t := by
  unfold emitPiece header
  split
  · rw [Session.print_nil]
  · have hrest : s.rest = s := by
      rw [Session.rest, Page.endBlock_of_atBreak hs]
    simp only [emitHeader, yields_bind, yields_endBlock, yields_line, hrest]
    constructor
    · rintro ⟨_, _, ⟨_, _, rfl, rfl⟩, h⟩
      exact h
    · intro h
      exact ⟨(), _, ⟨(), _, rfl, rfl⟩, h⟩

/-! ## Dispatch -/

theorem emitDecl_alias {b : Backend V S} {i : Interface} {d : Decl} {target : TypeRef}
    (he : d.entity = .aliasOf target) : b.emitDecl i d = b.aliasOf i d target := by
  simp [emitDecl, emitAlias, he]

theorem emitDecl_struct {b : Backend V S} {i : Interface} {d : Decl} {members : List Field}
    (he : d.entity = .struct members) : b.emitDecl i d = b.struct i d members := by
  simp [emitDecl, emitStruct, he]

theorem emitDecl_enum {b : Backend V S} {i : Interface} {d : Decl} {variants : List String}
    (he : d.entity = .enum variants) (hne : variants ≠ []) :
    b.emitDecl i d = b.enum i d variants := by
  cases variants with
  | nil => exact (hne rfl).elim
  | cons variant variants => simp [emitDecl, emitEnum, he]

theorem emitDecl_function {b : Backend V S} {i : Interface} {d : Decl} {args : List Field}
    {result : Option TypeRef} (he : d.entity = .function args result)
    (hb : b.host.emitsFunctions = true) : b.emitDecl i d = b.function i d args result := by
  simp [emitDecl, emitFunction, he, hb]

/-- A declaration of a kind without an operation, or an enum without variants, is refused. -/
theorem not_yields_emitDecl {b : Backend V S} {i : Interface} {d : Decl} {s t : Session V S}
    (h : ¬ b.Covers d ∨ d.entity = .enum []) : ¬ Yields (b.emitDecl i d) s () t := by
  intro hy
  cases he : d.entity with
  | aliasOf target => simp [Covers, he, Entity.isType] at h
  | struct members => simp [Covers, he, Entity.isType] at h
  | enum variants =>
      obtain rfl : variants = [] := by simpa [Covers, he, Entity.isType] using h
      simp only [emitDecl, emitEnum, he] at hy
      exact yields_throw.mp hy
  | function args result =>
      have hb : b.host.emitsFunctions = false := by
        simpa [Covers, he, Entity.isType, Entity.isFunction] using h
      simp only [emitDecl, emitFunction, he, hb, Bool.false_eq_true, if_false] at hy
      exact yields_throw.mp hy
  | foreign text =>
      simp only [emitDecl, he] at hy
      exact yields_throw.mp hy

end Backend

/-! ## Sheets -/

/-- A name that a declaration takes in its host and that can be taken once. -/
inductive Symbol where
  | struct (name : String)
  | global (name : String)
  deriving DecidableEq, Repr

structure Sheet (V S : Type) where
  /-- What a type resolves to once it is declared. -/
  value : (TypeRef → V) → Decl → V
  /-- The lines of a declaration, given its layout if it has one. -/
  body : (TypeRef → V) → Layout → Decl → List Line
  /-- What the backend keeps for itself after a declaration. -/
  keep : (TypeRef → V) → Decl → S → S
  claims : Decl → List Symbol
  held : S → List Symbol
  /-- The blocks in front of all declarations, for the name of the interface. -/
  opening : String → List (List Line)
  /-- The lines behind all declarations. -/
  closing : String → List Line

/-- The references read the same, and so do all atoms. -/
structure ReadAlike (refs : List TypeRef) (read read' : TypeRef → V) : Prop where
  atoms : ∀ a, read (.atom a) = read' (.atom a)
  refs : ∀ type ∈ refs, read type = read' type

/-- If what stands for one field depends on what its type reads as, so does what stands for all. -/
theorem map_congr_of_read {β : Type} {line : (TypeRef → V) → Field → β} {read read' : TypeRef → V}
    (hline : ∀ field, read field.type = read' field.type → line read field = line read' field)
    {fields : List Field} (h : ∀ field ∈ fields, read field.type = read' field.type) :
    fields.map (line read) = fields.map (line read') :=
  List.map_congr_left fun field hfield => hline field (h field hfield)

namespace Sheet

variable (sh : Sheet V S) (b : Backend V S) (i : Interface) (d : Decl) (s : Session V S)

/-- The declaration can be emitted in the session. -/
structure Ready : Prop where
  covered : b.Covers d
  inhabited : d.entity ≠ .enum []
  fresh : d.entity.isType = true → d.id ∉ s.defined.idents
  known : ∀ type ∈ d.entity.uses, s.defined.Knows type
  laidOut : ∀ members, d.entity = .struct members → ∃ layout, i.LaidOut b.abi (.decl d.id) layout
  nodup : (sh.claims d).Nodup
  unclaimed : ∀ c ∈ sh.claims d, c ∉ sh.held s.own

/-- What comes of emitting the declaration. -/
structure Result (t : Session V S) : Prop where
  page : t.page = (s.page.print
    (sh.body (s.defined.reading b.atomType) (i.layoutOf b.abi d.id) d)).endBlock {}
  defined : t.defined =
    if d.entity.isType then
      s.defined.extend d.id (sh.value (s.defined.reading b.atomType) d) d.name
    else s.defined
  own : t.own = sh.keep (s.defined.reading b.atomType) d s.own
  trusted : t.Trusted b.abi i

/-- The backend acts on the declaration as the sheet says: it succeeds exactly if the declaration
is ready. -/
structure Acts : Prop where
  sound : ∀ {t}, Yields (b.emitDecl i d) s () t → sh.Ready b i d s ∧ sh.Result b i d s t
  complete : sh.Ready b i d s → ∃ t, Yields (b.emitDecl i d) s () t

/-- The sheet is the one of the backend. -/
structure Describes : Prop where
  acts : ∀ {i d s}, s.Trusted b.abi i → i.get? d.id = some d → b.Covers d →
    d.entity ≠ .enum [] → sh.Acts b i d s
  preamble : ∀ {i s t}, Yields (b.preamble i) s () t ↔ t = s.printBlocks (sh.opening i.name)
  ending : ∀ {i s t}, s.page.atBreak = true →
    (Yields (b.closing i) s () t ↔ t = s.print (sh.closing i.name))
  value_congr : ∀ {d read read'}, ReadAlike d.entity.uses read read' →
    sh.value read d = sh.value read' d
  body_congr : ∀ {d read read' layout}, ReadAlike d.entity.uses read read' →
    sh.body read layout d = sh.body read' layout d
  keep_congr : ∀ {d read read' own}, ReadAlike d.entity.uses read read' →
    sh.keep read d own = sh.keep read' d own
  held_keep : ∀ {d read own c}, c ∈ sh.held (sh.keep read d own) ↔
    c ∈ sh.claims d ∨ c ∈ sh.held own
  claims_of_not_emits : ∀ {d}, b.emits d = false → sh.claims d = []
  body_inked : ∀ {d} read layout, b.Covers d → Inked (sh.body read layout d)
  opening_inked : ∀ name, ∀ lines ∈ sh.opening name, Inked lines
  closing_visible : ∀ name, ∀ line ∈ sh.closing name, visible line.text = true
  comment_visible : visible b.comment = true

/-- All lines of a declaration, the comments in front of it included. -/
def piece (read : TypeRef → V) : List Line :=
  b.header i d ++ sh.body read (i.layoutOf b.abi d.id) d

variable {sh b i d s}

theorem acts_iff : sh.Acts b i d s ↔
    (∀ t, Yields (b.emitDecl i d) s () t → sh.Ready b i d s ∧ sh.Result b i d s t) ∧
      (sh.Ready b i d s → ∃ t, Yields (b.emitDecl i d) s () t) :=
  ⟨fun h => ⟨fun _ => h.sound, h.complete⟩, fun h => ⟨h.1 _, h.2⟩⟩

/-- What is reported on the way makes no difference. -/
theorem Result.of_alike {t u : Session V S} (h : sh.Result b i d s u) (halike : u.Alike t) :
    sh.Result b i d s t where
  page := halike.page.trans h.page
  defined := halike.defined.trans h.defined
  own := halike.own.trans h.own
  trusted := h.trusted.of_sizing_eq halike.sizing

/-- A type has no signature, so it is ready when what it is made of is known. -/
theorem Ready.of_isType (htype : d.entity.isType = true) (hne : d.entity ≠ .enum [])
    (hfresh : d.id ∉ s.defined.idents) (hparts : ∀ type ∈ d.entity.parts, s.defined.Knows type)
    (hlaid : ∀ members, d.entity = .struct members →
      ∃ layout, i.LaidOut b.abi (.decl d.id) layout)
    (hnodup : (sh.claims d).Nodup) (hheld : ∀ c ∈ sh.claims d, c ∉ sh.held s.own) :
    sh.Ready b i d s := by
  refine ⟨.inl htype, hne, fun _ => hfresh, ?_, hlaid, hnodup, hheld⟩
  rwa [Entity.uses, Entity.signature_eq_nil (Entity.isFunction_eq_false_of_isType htype),
    List.append_nil]

theorem Describes.acts_of_get? (h : sh.Describes b) (htrust : s.Trusted b.abi i)
    (hd : i.get? d.id = some d) : sh.Acts b i d s := by
  by_cases hcan : b.Covers d ∧ d.entity ≠ .enum []
  · exact h.acts htrust hd hcan.1 hcan.2
  · refine ⟨fun hy => ?_, fun hr => (hcan ⟨hr.covered, hr.inhabited⟩).elim⟩
    refine (Backend.not_yields_emitDecl ?_ hy).elim
    rwa [not_and_or, not_not] at hcan

/-- A piece is written when the declaration is ready, and the piece is what is written. -/
theorem Describes.yields_emitPiece (h : sh.Describes b) (hs : s.page.atBreak = true)
    (htrust : s.Trusted b.abi i) (hd : i.get? d.id = some d) :
    ((∃ t, Yields (b.emitPiece i d) s () t) ↔ sh.Ready b i d s) ∧
      ∀ t, Yields (b.emitPiece i d) s () t → sh.Result b i d (s.print (b.header i d)) t := by
  have hacts := h.acts_of_get? (htrust.print (b.header i d)) hd
  have hready : sh.Ready b i d (s.print (b.header i d)) ↔ sh.Ready b i d s :=
    ⟨fun hr => ⟨hr.1, hr.2, hr.3, hr.4, hr.5, hr.6, hr.7⟩,
      fun hr => ⟨hr.1, hr.2, hr.3, hr.4, hr.5, hr.6, hr.7⟩⟩
  simp only [Backend.yields_emitPiece hs]
  refine ⟨⟨fun ⟨t, ht⟩ => hready.mp (hacts.sound ht).1, fun hr => ?_⟩, fun t ht => ?_⟩
  · exact hacts.complete (hready.mpr hr)
  · exact (hacts.sound ht).2

theorem Describes.piece_inked (h : sh.Describes b) (hd : b.Covers d) (read : TypeRef → V) :
    Inked (sh.piece b i d read) := by
  obtain ⟨hne, hink⟩ := h.body_inked read (i.layoutOf b.abi d.id) hd
  refine ⟨by simp [piece, hne], fun line hline => ?_⟩
  rcases List.mem_append.mp hline with hline | hline
  · obtain ⟨-, rfl⟩ := Backend.mem_header.mp hline
    simp [Backend.headerLine, visible_append, h.comment_visible]
  · exact hink line hline

end Sheet

end HostDecl
