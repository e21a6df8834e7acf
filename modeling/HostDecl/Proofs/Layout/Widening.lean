import HostDecl.Proofs.Layout.Placement
import HostDecl.Session.Basic

/-!
# Wider tokens only move layouts up

Two hosts may spell an atom with tokens of different widths. If each atom fits into its wider token,
in size and in alignment, then every type of the one host fits into the same type of the other one:
no member stands further back, and no size is smaller (`widening_moves_layouts_up`).

Padding alone does not see to that: five bytes become eight under an alignment of four, but six
under one of six. Here an alignment divides every greater one, at every depth, so where the wider
members of a struct stand the narrower ones can stand as well (`Placed.narrowed`). The calculator
places them no later than that (`Placed.least`).
-/

namespace HostDecl

/-- The first layout fits into the second one, member by member. -/
structure Layout.Fits (narrow wide : Layout) : Prop where
  align_dvd : narrow.align ∣ wide.align
  size_le : narrow.size ≤ wide.size
  offsets_le : List.Forall₂ (· ≤ ·) narrow.offsets wide.offsets

theorem Layout.Regular.align_pos {layout : Layout} (h : layout.Regular) : 0 < layout.align := by
  have hall : ∀ n ∈ [1, 2, 4, 8], 0 < n := by decide
  exact hall _ h.align_mem

/-! ## Structs -/

section

variable {narrow wide : List Layout} (h : List.Forall₂ Layout.Fits narrow wide)

include h

/-- Where members stand, narrower ones can stand as well. -/
theorem Placed.narrowed {start start' stop : Nat} {offsets : List Nat}
    (hplaced : Placed start wide offsets stop) (hstart : start' ≤ start) :
    ∃ stop', stop' ≤ stop ∧ Placed start' narrow offsets stop' := by
  induction hplaced generalizing narrow start' with
  | nil =>
      cases h
      exact ⟨start', hstart, .nil⟩
  | @cons start offset stop member members offsets hoffset hdvd _ ih =>
      obtain _ | ⟨hmember, hmembers⟩ := h
      obtain ⟨stop', hstop, hrest⟩ := ih hmembers (Nat.add_le_add_left hmember.size_le offset)
      exact ⟨stop', hstop, .cons (Nat.le_trans hstart hoffset)
        (Nat.dvd_trans hmember.align_dvd hdvd) hrest⟩

variable (hnarrow : ∀ l ∈ narrow, l.Regular) (hwide : ∀ l ∈ wide, l.Regular)

include hwide in
theorem greatestAlign_le : greatestAlign narrow ≤ greatestAlign wide := by
  induction h with
  | nil => exact Nat.le_refl 1
  | cons hfits _ ih =>
      obtain ⟨hl, hrest⟩ := List.forall_mem_cons.mp hwide
      have hle := Nat.le_of_dvd hl.align_pos hfits.align_dvd
      have hgreatest := ih hrest
      rw [greatestAlign, greatestAlign]
      omega

include hnarrow hwide

/-- Of two alignments the smaller one divides the greater one. -/
theorem greatestAlign_dvd : greatestAlign narrow ∣ greatestAlign wide := by
  have hdvd : ∀ m ∈ [1, 2, 4, 8], ∀ n ∈ [1, 2, 4, 8], m ≤ n → m ∣ n := by decide
  exact hdvd _ (greatestAlign_mem fun l hl => (hnarrow l hl).align_mem) _
    (greatestAlign_mem fun l hl => (hwide l hl).align_mem) (greatestAlign_le h hwide)

/-- A struct fits into the struct of wider members. -/
theorem fits_aggregate : (aggregate narrow).Fits (aggregate wide) := by
  have hplaced := Placed.memberOffsets 0 fun l hl => (hwide l hl).align_pos
  -- a placement of the narrow members that need not be theirs, only one to compare theirs with
  obtain ⟨stop, hstop, hnarrowed⟩ := hplaced.narrowed h (Nat.le_refl 0)
  obtain ⟨hoffsets, hend⟩ := hnarrowed.least (fun l hl => (hnarrow l hl).align_pos) (Nat.le_refl 0)
  have halign := greatestAlign_dvd h hnarrow hwide
  refine ⟨halign, nextMultiple_le (greatestAlign_pos narrow) ?_ ?_, hoffsets⟩
  · calc membersEnd 0 narrow ≤ membersEnd 0 wide := Nat.le_trans hend hstop
      _ ≤ (aggregate wide).size := le_nextMultiple (greatestAlign_pos wide)
  · exact Nat.dvd_trans halign dvd_nextMultiple

end

/-! ## All types -/

namespace Interface

variable {i : Interface} {abi abi' : Abi}

/-- What has a layout under one ABI has one under every other. The two are related as the layouts of
atoms are, if structs of related members are. -/
theorem LaidOut.transport {R : Layout → Layout → Prop}
    (hatoms : ∀ a, R (abi.atomLayout a) (abi'.atomLayout a))
    (hdisc : R (abi.atomLayout abi.discriminant) (abi'.atomLayout abi'.discriminant))
    (hstruct : ∀ layouts layouts', (∀ l ∈ layouts, l.Regular) → (∀ l ∈ layouts', l.Regular) →
      List.Forall₂ R layouts layouts' → R (aggregate layouts) (aggregate layouts'))
    {type : TypeRef} {layout : Layout} (h : i.LaidOut abi type layout) :
    ∃ layout', i.LaidOut abi' type layout' ∧ R layout layout' := by
  induction h with
  | atom a => exact ⟨_, .atom a, hatoms a⟩
  | aliasOf hd he _ ih =>
      obtain ⟨layout', hlaid, hR⟩ := ih
      exact ⟨layout', .aliasOf hd he hlaid, hR⟩
  | @struct id d members layouts hd he hlen h ih =>
      have hbeside : List.Forall₂ (fun member l => ∃ l', i.LaidOut abi' member.type l' ∧ R l l')
          members layouts := List.forall₂_iff_zip.mpr ⟨hlen, fun hp => ih _ hp⟩
      obtain ⟨layouts', hmembers, hlayouts⟩ := exists_beside_of_forall₂
        (P := fun (member : Field) l' => i.LaidOut abi' member.type l') (Q := R) hbeside
      have hregular : ∀ l ∈ layouts, l.Regular :=
        forall_of_zip hlen fun p hp => (h p hp).regular
      have hregular' : ∀ l ∈ layouts', l.Regular := by
        intro l hl
        obtain ⟨member, -, hlaid⟩ := exists_right_of_forall₂ hmembers.flip l hl
        exact hlaid.regular
      have hR := hstruct layouts layouts' hregular hregular' hlayouts
      rw [HostDecl.aggregate_eq fun l hl => (hregular l hl).align_pos,
        HostDecl.aggregate_eq fun l hl => (hregular' l hl).align_pos] at hR
      exact ⟨_, .struct' hd he hmembers, hR⟩
  | enum hd he => exact ⟨_, .enum hd he, hdisc⟩

/-- Where every atom fits into its token under the second ABI, every type fits. -/
theorem LaidOut.widened (hatoms : ∀ a, (abi.atomLayout a).Fits (abi'.atomLayout a))
    (hdisc : abi'.discriminant = abi.discriminant) {type : TypeRef} {layout : Layout}
    (h : i.LaidOut abi type layout) :
    ∃ layout', i.LaidOut abi' type layout' ∧ layout.Fits layout' :=
  h.transport hatoms (hdisc ▸ hatoms abi.discriminant) fun _ _ hl hl' hfits =>
    fits_aggregate hfits hl hl'

/-- Whether there is a layout does not depend on the ABI. -/
theorem exists_laidOut_iff (abi abi' : Abi) (type : TypeRef) :
    (∃ layout, i.LaidOut abi type layout) ↔ ∃ layout, i.LaidOut abi' type layout := by
  have hany : ∀ abi abi' : Abi, (∃ layout, i.LaidOut abi type layout) →
      ∃ layout, i.LaidOut abi' type layout := by
    rintro abi abi' ⟨layout, h⟩
    obtain ⟨layout', h', -⟩ := h.transport (R := fun _ _ => True) (fun _ => trivial) trivial
      fun _ _ _ _ _ => trivial
    exact ⟨layout', h'⟩
  exact ⟨hany abi abi', hany abi' abi⟩

end Interface

/-! ## Rust and C -/

/-- The answer of a host's calculator for an interface, after other questions. -/
def Host.layoutAfter (host : Host) (config : Config) (i : Interface) (queries : List Sizing.Query)
    (id : Ident) : Except Fault Layout :=
  ((Sizing.asked { interface := i, abi := host.abi config } queries).layoutOf id).1

theorem Host.layoutAfter_eq_ok_iff {host : Host} {config : Config} {i : Interface}
    {queries : List Sizing.Query} {id : Ident} {layout : Layout} :
    host.layoutAfter config i queries id = .ok layout ↔
      i.LaidOut (host.abi config) (.decl id) layout :=
  ((Sizing.Serves.new i (host.abi config)).asked queries).layoutOf_eq_ok_iff

/-- In C, every atom fits into the token that it has in Rust. -/
theorem fits_atomLayout (config : Config) (a : Atom) :
    ((Host.c.abi config).atomLayout a).Fits ((Host.rust.abi config).atomLayout a) := by
  have hall : ∀ arch : Arch, ∀ a : Atom,
      arch.alignOf (AtomTable.c.repr a) ∣ arch.alignOf (AtomTable.rust.repr a) ∧
        (AtomTable.c.repr a).bytes ≤ (AtomTable.rust.repr a).bytes := by
    intro arch a
    cases arch <;> cases a <;> decide
  exact ⟨(hall config.target.arch a).1, (hall config.target.arch a).2, .nil⟩

/-- Whatever calculators for Rust and for C have been asked before: one of them answers a layout
exactly if the other one does. The alignment in C divides the one in Rust, the size is not greater,
and there are equally many members, none of them at a greater offset. -/
theorem widening_moves_layouts_up (config : Config) (i : Interface)
    (queries queries' : List Sizing.Query) (id : Ident) :
    ((∃ layout, Host.rust.layoutAfter config i queries id = .ok layout) ↔
      ∃ layout, Host.c.layoutAfter config i queries' id = .ok layout) ∧
    ∀ rust c, Host.rust.layoutAfter config i queries id = .ok rust →
      Host.c.layoutAfter config i queries' id = .ok c →
        c.align ∣ rust.align ∧ c.size ≤ rust.size ∧ c.offsets.length = rust.offsets.length ∧
        List.Forall₂ (· ≤ ·) c.offsets rust.offsets := by
  simp only [Host.layoutAfter_eq_ok_iff]
  refine ⟨Interface.exists_laidOut_iff _ _ _, fun rust c hrust hc => ?_⟩
  obtain ⟨layout, hlaid, hfits⟩ := hc.widened (fits_atomLayout config) rfl
  obtain rfl := hlaid.unique hrust
  exact ⟨hfits.align_dvd, hfits.size_le, hfits.offsets_le.length_eq, hfits.offsets_le⟩

/-- A struct of an `i8` and a `u8`. -/
example :
    let i : Interface := {
      name := "m"
      decls := [
        { id := ⟨1⟩, name := "d", entity := .struct [⟨"a", .atom .i8⟩, ⟨"b", .atom .u8⟩] }] }
    Sizing.fresh i ⟨.c, .x86_64, .u32⟩ (.decl ⟨1⟩) = .ok ⟨2, 1, [0, 1]⟩ ∧
      Sizing.fresh i ⟨.rust, .x86_64, .u32⟩ (.decl ⟨1⟩) = .ok ⟨8, 4, [0, 4]⟩ := by
  decide +kernel

end HostDecl
