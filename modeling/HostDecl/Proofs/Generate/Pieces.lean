import HostDecl.Proofs.Generate.Acceptance
import HostDecl.Proofs.Generate.OneLine

/-!
# Texts in pieces

The text of an interface is a prelude, a piece for each declaration in order, and an epilogue. What
stands in a piece depends on the declaration and on those it refers to, not on what else the
interface holds, on the order of the declarations or on anything that the session went through
before (`sameParts_pieces`).
-/

namespace HostDecl

variable {V S : Type}

/-! ## Two interfaces with common declarations -/

section

variable {i i' : Interface}

/-- Everything that one interface declares is declared by the other, under the same ident. -/
theorem Interface.get?_of_subset (hi : i.Distinct) (hsub : ∀ d ∈ i'.decls, d ∈ i.decls)
    {id : Ident} {d : Decl} (h : i'.get? id = some d) : i.get? id = some d := by
  obtain rfl := Interface.id_of_get? h
  exact Interface.get?_of_mem hi (hsub d (Interface.mem_of_get? h))

/-- A function has no layout in any interface. -/
theorem Interface.layoutOf_function {abi : Abi} {d : Decl} (hd : i.get? d.id = some d)
    (hf : d.entity.isFunction = true) : i.layoutOf abi d.id = { size := 0, align := 1 } := by
  refine Interface.layoutOf_eq_empty fun layout h => ?_
  obtain ⟨d', hd', hnot⟩ := h.exists_get?
  obtain rfl := Option.some.inj (hd'.symm.trans hd)
  cases he : d'.entity with
  | function args result => exact hnot args result he
  | _ => simp [he, Entity.isFunction] at hf

theorem Interface.describe_congr {e : Entity}
    (h : ∀ type ∈ e.uses, i.refText type = i'.refText type) : i.describe e = i'.describe e := by
  have hfields : ∀ fields : List Field, (∀ f ∈ fields, i.refText f.type = i'.refText f.type) →
      i.fieldsText fields = i'.fieldsText fields := by
    intro fields hf
    rw [Interface.fieldsText, Interface.fieldsText,
      List.map_congr_left fun f hmem => by rw [hf f hmem]]
  unfold Interface.describe
  cases e with
  | aliasOf target =>
      dsimp only
      rw [Entity.forall_target rfl h]
  | struct members =>
      dsimp only
      rw [hfields members (Entity.forall_members rfl h)]
  | enum variants => rfl
  | function args result =>
      have hargs : i.fieldsText args = i'.fieldsText args :=
        hfields args (Entity.forall_args rfl h)
      cases result with
      | none =>
          dsimp only
          rw [hargs]
      | some type =>
          dsimp only
          rw [hargs, Entity.forall_result rfl h type rfl]
  | foreign text => rfl

end

/-! ## Pieces of common declarations -/

theorem readAlike_of_get? {r r' : Registry V} {atomType : Atom → V} {refs : List TypeRef}
    (h : ∀ id, .decl id ∈ refs → r.get? id = r'.get? id) :
    ReadAlike refs (r.reading atomType) (r'.reading atomType) where
  atoms _ := rfl
  refs type htype := by
    cases type with
    | atom a => rfl
    | decl id => simp only [Registry.reading, Registry.resolve, h id htype]
    | foreign text => rfl

namespace Sheet

variable {sh : Sheet V S} {b : Backend V S} {i i' : Interface} {t t' : Session V S} {d : Decl}

/-- A type is registered as the same whatever else the interface declares. -/
theorem Finished.get?_eq (hsh : sh.Describes b) (h : sh.Finished b i t) (h' : sh.Finished b i' t')
    (hsub : ∀ d ∈ i'.decls, d ∈ i.decls) (hordered : i'.Ordered b.refs) :
    ∀ d ∈ i'.decls, d.entity.isType = true → t.defined.get? d.id = t'.defined.get? d.id := by
  refine hordered.induction fun d hd hrefs htype => ?_
  have hemits : b.emits d = true := by
    simp [Backend.emits, Entity.isFunction_eq_false_of_isType htype]
  rw [Backend.refs_of_emits hemits] at hrefs
  have halike : ReadAlike d.entity.uses (t.defined.reading b.atomType)
      (t'.defined.reading b.atomType) := by
    refine readAlike_of_get? fun id hid => ?_
    obtain ⟨d', -, rfl, htype', heq⟩ := hrefs id hid
    exact heq htype'
  rw [h.value d (hsub d hd) htype, h'.value d hd htype, hsh.value_congr halike]

/-- The piece of a declaration is the same whatever else the interface declares. -/
theorem Finished.piece_eq (hsh : sh.Describes b) (h : sh.Finished b i t)
    (h' : sh.Finished b i' t') (hi : i.Distinct) (hi' : i'.Distinct)
    (hsub : ∀ d ∈ i'.decls, d ∈ i.decls) (hordered : i'.Ordered b.refs)
    (hd : d ∈ i'.decls.filter b.emits) :
    sh.piece b i d (t.defined.reading b.atomType) =
      sh.piece b i' d (t'.defined.reading b.atomType) := by
  have hmem := (List.mem_filter.mp hd).1
  have hknown : ∀ id, .decl id ∈ d.entity.uses →
      ∃ d' ∈ i'.decls, d'.id = id ∧ d'.entity.isType = true :=
    fun id hid => h'.declared (h'.known d hd _ hid)
  have halike : ReadAlike d.entity.uses (t.defined.reading b.atomType)
      (t'.defined.reading b.atomType) := by
    refine readAlike_of_get? fun id hid => ?_
    obtain ⟨d', hd', rfl, htype⟩ := hknown id hid
    exact h.get?_eq hsh h' hsub hordered d' hd' htype
  have hdescribe : i.describe d.entity = i'.describe d.entity := by
    refine Interface.describe_congr fun type htype => ?_
    cases type with
    | atom a => rfl
    | decl id =>
        obtain ⟨d', hd', rfl, -⟩ := hknown id htype
        simp only [Interface.refText, Interface.nameOf,
          Interface.get?_of_mem hi (hsub d' hd'), Interface.get?_of_mem hi' hd']
    | foreign text => rfl
  have hlayout : i.layoutOf b.abi d.id = i'.layoutOf b.abi d.id := by
    rcases h'.covered d hd with htype | ⟨hf, -⟩
    · obtain ⟨layout, hlaid⟩ := h'.laidOut d hmem htype
      have hlaid' := hlaid.mono fun id d => Interface.get?_of_subset hi hsub
      rw [hlaid.layoutOf_eq, hlaid'.layoutOf_eq]
    · rw [Interface.layoutOf_function (Interface.get?_of_mem hi (hsub d hmem)) hf,
        Interface.layoutOf_function (Interface.get?_of_mem hi' hmem) hf]
  rw [piece, piece, Backend.header, Backend.header, Backend.headerLine, Backend.headerLine,
    hdescribe, hlayout, hsh.body_congr halike]

end Sheet

/-! ## Texts -/

/-- What a backend writes in front of all declarations, on an empty page. -/
def Backend.prelude (b : Backend V S) (i : Interface) : String :=
  (outcome (b.preamble i) (b.newSession {})).2.page.text

/-- What a backend writes behind all declarations, on an empty page. -/
def Backend.epilogue (b : Backend V S) (i : Interface) : String :=
  (outcome (b.closing i) (b.newSession {})).2.page.text

namespace Sheet.Describes

variable {sh : Sheet V S} {b : Backend V S} {i i' : Interface} {text text' : String}
  {skipUnsupported : Bool} {reporter reporter' : Reporter}

theorem prelude_eq (hsh : sh.Describes b) : b.prelude i = sh.prelude i.name := by
  have hrun : Yields (b.preamble i) (b.newSession {}) () _ := hsh.preamble.mpr rfl
  have hpage := Session.printBlocks_page (s := b.newSession {}) rfl (hsh.opening_inked i.name)
  rw [Backend.prelude, show outcome _ _ = _ from hrun, hpage, prelude]
  simp [Backend.newSession]

theorem epilogue_eq (hsh : sh.Describes b) : b.epilogue i = sh.epilogue i.name := by
  have hrun : Yields (b.closing i) (b.newSession {}) () _ := (hsh.ending rfl).mpr rfl
  rw [Backend.epilogue, show outcome _ _ = _ from hrun, Session.print_page,
    Page.print_text _ (hsh.closing_visible i.name), epilogue]
  simp [Backend.newSession]

/-- Two texts of a backend for interfaces with common declarations. -/
theorem texts_in_pieces (hsh : sh.Describes b) (htidy : sh.Tidy b) (hi : i.Distinct)
    (hi' : i'.Distinct) (hname : i'.name = i.name) (hsub : ∀ d ∈ i'.decls, d ∈ i.decls)
    (hnames : ∀ name ∈ i.names, OneLine name)
    (h : (b.generate i skipUnsupported reporter).1 = .ok text)
    (h' : (b.generate i' skipUnsupported reporter').1 = .ok text') :
    ∃ piece : Decl → List String,
      (∀ d ∈ i.decls.filter b.emits, piece d ≠ [] ∧
        ∀ line ∈ piece d, visible line = true ∧ OneLine line) ∧
      text = b.prelude i ++ String.join ((i.decls.filter b.emits).map fun d =>
        linesText (piece d) ++ "\n") ++ b.epilogue i ∧
      text' = b.prelude i ++ String.join ((i'.decls.filter b.emits).map fun d =>
        linesText (piece d) ++ "\n") ++ b.epilogue i := by
  obtain ⟨t, ht, rfl⟩ := Backend.generate_eq_ok_iff.mp h
  obtain ⟨t', ht', rfl⟩ := Backend.generate_eq_ok_iff.mp h'
  have hend := hsh.finished hi ht
  have hend' := hsh.finished hi' ht'
  have hordered := ((hsh.run_succeeds_iff hi).mp ⟨t, ht⟩).2.ordered
  have hordered' := ((hsh.run_succeeds_iff hi').mp ⟨t', ht'⟩).2.ordered
  refine ⟨fun d => (sh.piece b i d (t.defined.reading b.atomType)).map Line.shown, ?_, ?_, ?_⟩
  · intro d hd
    have hinked := hsh.piece_inked (i := i) (hend.covered d hd) (t.defined.reading b.atomType)
    refine ⟨by simpa using hinked.ne_nil, List.forall_mem_map.mpr fun line hline => ⟨?_, ?_⟩⟩
    · exact visible_append_right _ (hinked.visible line hline)
    · have htame : ∀ name ∈ d.names, Tame name := fun name hname =>
        .inr (hnames name (Interface.mem_names (List.mem_filter.mp hd).1 hname))
      exact (hend.oneLine_piece htidy hi hordered (Interface.shownOneLine hnames) hd htame line
        hline).shown
  · rw [hend.text, hsh.prelude_eq, hsh.epilogue_eq]
    rfl
  · have hpieces : (i'.decls.filter b.emits).map (fun d =>
        blockText (sh.piece b i' d (t'.defined.reading b.atomType))) =
        (i'.decls.filter b.emits).map fun d =>
          blockText (sh.piece b i d (t.defined.reading b.atomType)) :=
      List.map_congr_left fun d hd => congrArg blockText
        (hend.piece_eq hsh hend' hi hi' hsub hordered' hd).symm
    rw [hend'.text, hpieces, hsh.prelude_eq, hsh.epilogue_eq, hname]
    rfl

end Sheet.Describes

/-! ## The hosts -/

namespace Host

/-- A run of the host has something to write for the declaration. -/
def emits (host : Host) (d : Decl) : Bool :=
  host.emitsFunctions || !d.entity.isFunction

/-- What the host writes in front of all declarations. -/
def prelude (host : Host) (config : Config) (i : Interface) : String :=
  match host with
  | .rust => (Rust.backend config).prelude i
  | .c => (C.backend config).prelude i
  | .llvm => (Llvm.backend config).prelude i

/-- What the host writes behind all declarations. -/
def epilogue (host : Host) (config : Config) (i : Interface) : String :=
  match host with
  | .rust => (Rust.backend config).epilogue i
  | .c => (C.backend config).epilogue i
  | .llvm => (Llvm.backend config).epilogue i

end Host

/-- The texts of two interfaces, one of which declares what the other declares in any order and
with any part left out, are put together from the same pieces, each in the order of its own
declarations. A piece is one or more lines, none of them blank, and a blank line. -/
theorem texts_share_pieces (host : Host) (config : Config) (i i' : Interface)
    (skipUnsupported : Bool) (reporter reporter' : Reporter) (text text' : String)
    (hi : i.Distinct) (hi' : i'.Distinct) (hname : i'.name = i.name)
    (hsub : ∀ d ∈ i'.decls, d ∈ i.decls) (hnames : ∀ name ∈ i.names, OneLine name)
    (h : (host.generate config i skipUnsupported reporter).1 = .ok text)
    (h' : (host.generate config i' skipUnsupported reporter').1 = .ok text') :
    ∃ piece : Decl → List String,
      (∀ d ∈ i.decls.filter host.emits, piece d ≠ [] ∧
        ∀ line ∈ piece d, visible line = true ∧ OneLine line) ∧
      text = host.prelude config i ++ String.join ((i.decls.filter host.emits).map fun d =>
        linesText (piece d) ++ "\n") ++ host.epilogue config i ∧
      text' = host.prelude config i ++ String.join ((i'.decls.filter host.emits).map fun d =>
        linesText (piece d) ++ "\n") ++ host.epilogue config i := by
  cases host with
  | rust =>
      exact (Rust.describes config).texts_in_pieces (Rust.tidy config) hi hi' hname hsub hnames h h'
  | c => exact (C.describes config).texts_in_pieces (C.tidy config) hi hi' hname hsub hnames h h'
  | llvm =>
      exact (Llvm.describes config).texts_in_pieces (Llvm.tidy config) hi hi' hname hsub hnames h h'

/-- The first two of the sample's declarations, the other way round. -/
def Interface.someShapes : Interface where
  name := "shapes"
  decls := (shapes.decls.take 2).reverse

theorem texts_share_pieces_shapes :
    ∃ text text', (Host.c.generate .linux .shapes false {}).1 = .ok text ∧
      (Host.c.generate .linux .someShapes false {}).1 = .ok text' ∧
      ∃ piece : Decl → List String,
        text = Host.c.prelude .linux .shapes ++ String.join (Interface.shapes.decls.map fun d =>
          linesText (piece d) ++ "\n") ++ Host.c.epilogue .linux .shapes ∧
        text' = Host.c.prelude .linux .shapes ++
          String.join (Interface.someShapes.decls.map fun d => linesText (piece d) ++ "\n") ++
            Host.c.epilogue .linux .shapes := by
  obtain ⟨text, h⟩ := generates_of_accepted .c .linux .shapes false {} (by decide)
    (by decide +kernel)
  obtain ⟨text', h'⟩ := generates_of_accepted .c .linux .someShapes false {} (by decide)
    (by decide +kernel)
  obtain ⟨piece, -, hpieces⟩ := texts_share_pieces .c .linux .shapes .someShapes false {} {} text
    text' (by decide) (by decide) rfl (by decide) (by decide) h h'
  exact ⟨text, text', h, h', piece, hpieces⟩

end HostDecl
