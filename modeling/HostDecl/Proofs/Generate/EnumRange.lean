import HostDecl.Proofs.Backend.Uniform
import HostDecl.Proofs.Generate.Acceptance
import HostDecl.Proofs.Session.Growth
import Mathlib.Algebra.Group.Nat.Defs

/-!
# Which enums fit their representation

The variants of an enum are numbered in the order in which they are declared, and an enum is written
with the token of the discriminant from the settings. Nothing compares the two: the number of
variants is bounded by nothing, the width is a matter of settings and host. So all variants of an
enum have values that its atom can hold exactly if there are no more of them than the atom has
values from zero on (`enum_values_fit_iff`); a signed atom has half of its values there.
-/

namespace HostDecl

variable {V S : Type}

/-! ## What an integer atom can hold -/

namespace IntAtom

/-- The atom has values below zero. -/
def isSigned (a : IntAtom) : Bool :=
  match a.val with
  | .i8 | .i16 | .i32 | .i64 => true
  | _ => false

/-- How many values the atom has from zero on. -/
def capacity (a : IntAtom) : Nat :=
  2 ^ (if a.isSigned then a.val.bits - 1 else a.val.bits)

/-- The atom has the value. -/
def Represents (a : IntAtom) (n : Int) : Prop :=
  (if a.isSigned then -(a.capacity : Int) else 0) ≤ n ∧ n < a.capacity

instance (a : IntAtom) (n : Int) : Decidable (a.Represents n) :=
  inferInstanceAs (Decidable (_ ∧ _))

theorem represents_natCast_iff (a : IntAtom) (n : Nat) : a.Represents n ↔ n < a.capacity := by
  have hfrom : (if a.isSigned then -(a.capacity : Int) else 0) ≤ n := by
    split <;> omega
  rw [Represents, and_iff_right hfrom, Int.ofNat_lt]

/-- Positions in a list fit exactly if there are no more of them than the atom has values. -/
theorem represents_positions_iff {α : Type} (a : IntAtom) (xs : List α) :
    (∀ x ∈ xs.zipIdx, a.Represents (x.2 : Nat)) ↔ xs.length ≤ a.capacity := by
  simp only [represents_natCast_iff]
  constructor
  · intro h
    by_contra hlong
    have hat : a.capacity < xs.length := by omega
    have hmem : (xs[a.capacity], a.capacity) ∈ xs.zipIdx :=
      List.mk_mem_zipIdx_iff_getElem?.mpr (List.getElem?_eq_getElem hat)
    exact absurd (h _ hmem) (Nat.lt_irrefl _)
  · rintro hshort ⟨x, n⟩ hx
    have hn : n < xs.length := by simpa using List.snd_lt_add_of_mem_zipIdx hx
    omega

end IntAtom

/-! ## Enums in a text -/

/-- The token of an integer has the layout of an integer. -/
theorem Host.isInteger_repr (host : Host) (a : Atom) :
    a.isInteger = true → (host.atoms.repr a).isInteger = true := by
  cases host <;> cases a <;> decide

/-- The atom that enums are represented by: the one whose layout the token of the discriminant
has. -/
def Host.enumAtom (host : Host) (config : Config) : IntAtom :=
  ⟨host.atoms.repr config.discriminant.val, host.isInteger_repr _ config.discriminant.property⟩

/-- How a host declares an enum: with the token of the discriminant, and the variants in order. -/
def Host.enumLines (host : Host) (config : Config) (d : Decl) (variants : List String) :
    List Line :=
  match host with
  | .rust => Rust.enumLines (AtomTable.rust.token config.discriminant.val) d variants
  | .c => C.enumLines (AtomTable.c.token config.discriminant.val) d variants
  | .llvm => Llvm.enumLines (Ir.IrType.ofAtom config.discriminant.val) d variants

/-- What one declaration writes stands in the text as a block. -/
theorem Backend.block_in_text {b : Backend V S} (hb : b.Uniform) {i : Interface} {d : Decl}
    {lines : List Line} {skipUnsupported : Bool} {reporter : Reporter} {text : String}
    (hd : d ∈ i.decls) (hf : d.entity.isFunction = false) (hlines : Inked lines)
    (hemit : ∀ s t, Yields (b.emitDecl i d) s () t → t.page = (s.page.print lines).endBlock {})
    (h : (b.generate i skipUnsupported reporter).1 = .ok text) :
    ∃ front rest, text = front ++ blockText lines ++ rest := by
  obtain ⟨t, ht, rfl⟩ := Backend.generate_eq_ok_iff.mp h
  unfold Backend.run at ht
  simp only [yields_bind] at ht
  obtain ⟨functions, _, -, _, _, -, _, s, hloop, hclosing⟩ := ht
  obtain ⟨done, todo, hsplit⟩ := List.append_of_mem hd
  rw [hsplit] at hloop
  obtain ⟨r, -, hrest⟩ := yields_forM_append.mp hloop
  obtain ⟨q, hentry, htodo⟩ := yields_forM_cons.mp hrest
  -- The entry is the header and the declaration, and what comes after it only adds to the page.
  rw [Backend.emitEntry, hf] at hentry
  obtain ⟨_, p, -, hdecl⟩ := yields_bind.mp hentry
  have hpage : q.page.text = p.page.text ++ blockText lines := by
    rw [hemit p q hdecl, hlines.endBlock_print]
  have hgrown := Backend.grown_rest hb (yields_bind.mpr ⟨(), s, htodo, hclosing⟩)
  obtain ⟨rest, hprefix⟩ := hgrown.written
  refine ⟨p.page.text, String.ofList rest, String.ext ?_⟩
  simp [← hprefix, hpage]

section

variable {config : Config} {i : Interface} {d : Decl} {variants : List String}

/-- An enum that is emitted is emitted by the operation for enums; it is not empty. -/
theorem Backend.yields_enum {b : Backend V S} {s t : Session V S}
    (he : d.entity = .enum variants) (h : Yields (b.emitDecl i d) s () t) :
    Yields (b.enum i d variants) s () t := by
  have hne : variants ≠ [] := by
    rintro rfl
    exact Backend.not_yields_emitDecl (.inr he) h
  rwa [Backend.emitDecl_enum he hne] at h

theorem C.page_of_enum (he : d.entity = .enum variants) (s t : Session String Unit)
    (h : Yields ((C.backend config).emitDecl i d) s () t) :
    t.page = (s.page.print (Host.c.enumLines config d variants)).endBlock {} := by
  obtain ⟨-, rfl⟩ := C.yields_emitEnum.mp (Backend.yields_enum he h)
  rfl

theorem Rust.page_of_enum (he : d.entity = .enum variants) (s t : Session String Unit)
    (h : Yields ((Rust.backend config).emitDecl i d) s () t) :
    t.page = (s.page.print (Host.rust.enumLines config d variants)).endBlock {} :=
  (Rust.yields_emitEnum.2 t (Backend.yields_enum he h)).page

theorem Llvm.page_of_enum (he : d.entity = .enum variants) (s t : Session Ir.IrType Llvm.Scope)
    (h : Yields ((Llvm.backend config).emitDecl i d) s () t) :
    t.page = (s.page.print (Host.llvm.enumLines config d variants)).endBlock {} := by
  obtain ⟨-, rfl⟩ := (Llvm.yields_emitEnum rfl).mp (Backend.yields_enum he h)
  rfl

theorem Host.inked_enumLines (host : Host) (config : Config) (he : d.entity = .enum variants) :
    Inked (host.enumLines config d variants) := by
  have htype : d.entity.isType = true := by rw [he]; rfl
  have hcover : d.entity.isType = true ∨ d.entity.isFunction = true ∧ host.emitsFunctions = true :=
    .inl htype
  cases host with
  | rust =>
      have h := (Rust.describes config).body_inked
        (fun _ => AtomTable.rust.token config.discriminant.val) { size := 0, align := 1 } hcover
      dsimp only [Rust.sheet] at h
      rwa [he] at h
  | c =>
      have h := (C.describes config).body_inked
        (fun _ => AtomTable.c.token config.discriminant.val) { size := 0, align := 1 } hcover
      dsimp only [C.sheet] at h
      rwa [he] at h
  | llvm =>
      have h := (Llvm.describes config).body_inked
        (fun _ => .ofAtom config.discriminant.val) { size := 0, align := 1 } hcover
      dsimp only [Llvm.sheet] at h
      rwa [he] at h

end

/-- In whatever text is generated, an enum stands with its variants numbered in order, and all these
numbers are values of the atom that represents the enum exactly if there are no more variants than
the atom has values from zero on. -/
theorem enum_values_fit_iff (host : Host) (config : Config) (i : Interface)
    (skipUnsupported : Bool) (reporter : Reporter) (text : String)
    (h : (host.generate config i skipUnsupported reporter).1 = .ok text) :
    ∀ d ∈ i.decls, ∀ variants, d.entity = .enum variants →
      (∃ front rest, text = front ++ blockText (host.enumLines config d variants) ++ rest) ∧
      ((∀ variant ∈ variants.zipIdx, (host.enumAtom config).Represents variant.2) ↔
        variants.length ≤ (host.enumAtom config).capacity) := by
  intro d hd variants he
  have hf : d.entity.isFunction = false := by rw [he]; rfl
  refine ⟨?_, (host.enumAtom config).represents_positions_iff variants⟩
  have hinked := host.inked_enumLines config he
  cases host with
  | rust =>
      exact Backend.block_in_text (Rust.uniform config) hd hf hinked (Rust.page_of_enum he) h
  | c => exact Backend.block_in_text (C.uniform config) hd hf hinked (C.page_of_enum he) h
  | llvm =>
      exact Backend.block_in_text (Llvm.uniform config) hd hf hinked (Llvm.page_of_enum he) h

theorem enum_values_fit_iff_shapes :
    ∃ text, (Host.rust.generate .linux .shapes true {}).1 = .ok text ∧
      ∃ front rest, text = front ++ blockText (Host.rust.enumLines .linux
        { id := ⟨2⟩, name := "color", entity := .enum ["red", "dark_blue"] }
        ["red", "dark_blue"]) ++ rest := by
  obtain ⟨text, h⟩ := generates_of_accepted .rust .linux .shapes true {} (by decide)
    (by decide +kernel)
  obtain ⟨hstands, -⟩ := enum_values_fit_iff .rust .linux .shapes true {} text h
    { id := ⟨2⟩, name := "color", entity := .enum ["red", "dark_blue"] } (by decide)
    ["red", "dark_blue"] rfl
  exact ⟨text, h, hstands⟩

/-- An enum with one variant more than there are signed bytes from zero on. -/
def Interface.crowded : Interface where
  name := "m"
  decls := [
    { id := ⟨0⟩, name := "e", entity := .enum ((List.range 129).map fun n => "v" ++ toString n) }]

/-- Settings that represent enums by signed bytes. -/
def Config.narrow : Config where
  target := Config.linux.target
  enumRepr := some ⟨.i8, rfl⟩

/-- Enums are written that do not fit: the last variant of this one is 128, as a signed byte. -/
theorem enum_values_beyond_range :
    ¬ ∀ (host : Host) (config : Config) (i : Interface) (skipUnsupported : Bool)
      (reporter : Reporter) (text : String),
      (host.generate config i skipUnsupported reporter).1 = .ok text →
      ∀ d ∈ i.decls, ∀ variants, d.entity = .enum variants →
        ∀ variant ∈ variants.zipIdx, (host.enumAtom config).Represents variant.2 := by
  intro hall
  obtain ⟨text, h⟩ := generates_of_accepted .c .narrow .crowded false {} (by decide)
    (by decide +kernel)
  have hfits := hall .c .narrow .crowded false {} text h _ (List.mem_singleton_self _) _ rfl
  rw [IntAtom.represents_positions_iff, List.length_map, List.length_range] at hfits
  exact absurd hfits (by decide)

end HostDecl
