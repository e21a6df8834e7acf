import HostDecl.Proofs.Interface.Order
import HostDecl.Proofs.Layout.Cache
import HostDecl.Proofs.Layout.DataLayout

/-!
# Members stand as close together as they can

`Placed` says what it is to place the members of a struct: in their order, none before the end of
the one in front of it, each at a multiple of its alignment. The calculator takes the first place
that is left for each member, and that is the best for all that follow as well: no other placing has
a smaller offset or a smaller end (`Placed.least`). Alignments are powers of two up to eight and
divide sizes, at every depth (`Interface.LaidOut.regular`). So a struct has the least layout of all
that place its members and end at a multiple of its alignment (`layoutOf_least`).
-/

namespace HostDecl

/-! ## The next multiple -/

section

variable {n m align : Nat}

theorem le_nextMultiple (h : 0 < align) : n ≤ nextMultiple n align := by
  have hmod := Nat.mod_lt (n + align - 1) h
  have hdiv := Nat.div_add_mod' (n + align - 1) align
  unfold nextMultiple
  omega

theorem dvd_nextMultiple : align ∣ nextMultiple n align :=
  Nat.dvd_mul_left _ _

theorem nextMultiple_le (h : 0 < align) (hle : n ≤ m) (hdvd : align ∣ m) :
    nextMultiple n align ≤ m := by
  obtain ⟨q, rfl⟩ := hdvd
  have hlt : (n + align - 1) / align < q + 1 := by
    rw [Nat.div_lt_iff_lt_mul h, Nat.add_one_mul, Nat.mul_comm q]
    omega
  calc nextMultiple n align ≤ q * align := Nat.mul_le_mul_right align (Nat.le_of_lt_succ hlt)
    _ = align * q := Nat.mul_comm q align

end

/-! ## Placing members -/

/-- From `start` on, the members stand at the offsets, in order and apart from each other, each at a
multiple of its alignment. The last one ends at `stop`. -/
inductive Placed : Nat → List Layout → List Nat → Nat → Prop
  | nil {start : Nat} : Placed start [] [] start
  | cons {start offset stop : Nat} {member : Layout} {members : List Layout} {offsets : List Nat}
      (hstart : start ≤ offset) (hdvd : member.align ∣ offset)
      (h : Placed (offset + member.size) members offsets stop) :
      Placed start (member :: members) (offset :: offsets) stop

namespace Placed

variable {members : List Layout}

theorem length_eq {start stop : Nat} {offsets : List Nat} (h : Placed start members offsets stop) :
    offsets.length = members.length := by
  induction h with
  | nil => rfl
  | cons _ _ _ ih => exact congrArg Nat.succ ih

/-- Where an aggregate has its members is a way to place them. -/
theorem memberOffsets (start : Nat) (h : ∀ member ∈ members, 0 < member.align) :
    Placed start members (memberOffsets start members) (membersEnd start members) := by
  induction members generalizing start with
  | nil => exact .nil
  | cons member members ih =>
      obtain ⟨hmember, hmembers⟩ := List.forall_mem_cons.mp h
      exact .cons (le_nextMultiple hmember) dvd_nextMultiple (ih _ hmembers)

/-- No way to place the members, from the same place or from a later one, has a smaller offset or a
smaller end. -/
theorem least {start start' stop : Nat} {offsets : List Nat}
    (h : Placed start' members offsets stop) (hpos : ∀ member ∈ members, 0 < member.align)
    (hstart : start ≤ start') :
    List.Forall₂ (· ≤ ·) (HostDecl.memberOffsets start members) offsets ∧
      membersEnd start members ≤ stop := by
  induction h generalizing start with
  | nil => exact ⟨.nil, hstart⟩
  | @cons start' offset stop member members offsets hoffset hdvd _ ih =>
      obtain ⟨hmember, hmembers⟩ := List.forall_mem_cons.mp hpos
      have hfirst : nextMultiple start member.align ≤ offset :=
        nextMultiple_le hmember (Nat.le_trans hstart hoffset) hdvd
      obtain ⟨hrest, hend⟩ := ih hmembers (Nat.add_le_add_right hfirst member.size)
      exact ⟨.cons hfirst hrest, hend⟩

end Placed

/-! ## Regular layouts -/

/-- The alignment is a power of two up to eight, and what follows the type is aligned like it. -/
structure Layout.Regular (layout : Layout) : Prop where
  align_mem : layout.align ∈ [1, 2, 4, 8]
  align_dvd : layout.align ∣ layout.size

theorem Abi.regular_atomLayout (abi : Abi) (a : Atom) : (abi.atomLayout a).Regular := by
  have hall : ∀ arch : Arch, ∀ a : Atom,
      arch.alignOf a ∈ [1, 2, 4, 8] ∧ arch.alignOf a ∣ a.bytes := by
    intro arch a
    cases arch <;> cases a <;> decide
  exact ⟨(hall abi.arch _).1, (hall abi.arch _).2⟩

theorem greatestAlign_eq_foldr (members : List Layout) :
    greatestAlign members = (members.map Layout.align).foldr max 1 := by
  induction members with
  | nil => rfl
  | cons member members ih => rw [greatestAlign, ih, List.map_cons, List.foldr_cons]

theorem greatestAlign_mem {members : List Layout}
    (h : ∀ member ∈ members, member.align ∈ [1, 2, 4, 8]) :
    greatestAlign members ∈ [1, 2, 4, 8] := by
  induction members with
  | nil => exact List.mem_cons_self
  | cons member members ih =>
      obtain ⟨hmember, hmembers⟩ := List.forall_mem_cons.mp h
      rcases Nat.le_total member.align (greatestAlign members) with hle | hle
      · rw [greatestAlign, Nat.max_eq_right hle]
        exact ih hmembers
      · rw [greatestAlign, Nat.max_eq_left hle]
        exact hmember

theorem regular_aggregate {members : List Layout}
    (h : ∀ member ∈ members, member.align ∈ [1, 2, 4, 8]) : (aggregate members).Regular :=
  ⟨greatestAlign_mem h, dvd_nextMultiple⟩

theorem Interface.LaidOut.regular {i : Interface} {abi : Abi} {type : TypeRef} {layout : Layout}
    (h : i.LaidOut abi type layout) : layout.Regular := by
  induction h with
  | atom a => exact abi.regular_atomLayout a
  | aliasOf _ _ _ ih => exact ih
  | struct _ _ hlen hmembers ih =>
      rw [← aggregate_eq hlen hmembers]
      exact regular_aggregate (forall_of_zip hlen fun p hp => (ih p hp).align_mem)
  | enum => exact abi.regular_atomLayout _

/-! ## Calculators -/

namespace Sizing

variable {i : Interface} {abi : Abi}

/-- Whatever a calculator has been asked, it answers the layout of a reference that has one. -/
theorem Serves.layoutOfRef_eq {z : Sizing} (hz : z.Serves i abi) {type : TypeRef} {layout : Layout}
    (h : i.LaidOut abi type layout) : (z.layoutOfRef type).1 = .ok layout := by
  obtain ⟨rfl, rfl, hsound⟩ := hz
  obtain ⟨known, hy, -⟩ := Measuring.answers_measureRef h [] (by simp) z.known hsound
  exact congrArg Prod.fst hy

/-- Whatever a calculator has been asked, what it answers is the layout of the declaration. -/
theorem Serves.layoutOf_eq_ok_iff {z : Sizing} (hz : z.Serves i abi) {id : Ident}
    {layout : Layout} : (z.layoutOf id).1 = .ok layout ↔ i.LaidOut abi (.decl id) layout := by
  obtain ⟨rfl, rfl, hsound⟩ := hz
  exact Sizing.layoutOf_eq_ok_iff hsound

end Sizing

/-- Whatever a calculator has been asked before, and whatever the table of atoms, the target and the
discriminant are: a layout that it answers has an alignment of one, two, four or eight bytes that
divides the size. For a struct there is an offset for each member. The members are placed there, in
order and apart, inside the size; the alignment is the greatest of one and of theirs. And of all
ways to place the members this one has the least offsets, and the least size that covers them and is
a multiple of the alignment. -/
theorem layoutOf_least (i : Interface) (abi : Abi) (queries : List Sizing.Query) (id : Ident)
    (layout : Layout)
    (h : ((Sizing.asked { interface := i, abi } queries).layoutOf id).1 = .ok layout) :
    layout.align ∈ [1, 2, 4, 8] ∧ layout.align ∣ layout.size ∧
    ∀ d members, i.get? id = some d → d.entity = .struct members →
      ∃ layouts stop,
        List.Forall₂ (fun member l =>
          ((Sizing.asked { interface := i, abi } queries).layoutOfRef member.type).1 = .ok l)
          members layouts ∧
        layout.offsets.length = members.length ∧
        Placed 0 layouts layout.offsets stop ∧ stop ≤ layout.size ∧
        layout.align = (layouts.map Layout.align).foldr max 1 ∧
        ∀ offsets stop', Placed 0 layouts offsets stop' →
          List.Forall₂ (· ≤ ·) layout.offsets offsets ∧
          ∀ size, layout.align ∣ size → stop' ≤ size → layout.size ≤ size := by
  have hserves := (Sizing.Serves.new i abi).asked queries
  have hlaid := hserves.layoutOf_eq_ok_iff.mp h
  refine ⟨hlaid.regular.align_mem, hlaid.regular.align_dvd, fun d members hd he => ?_⟩
  obtain ⟨layouts, rfl, hall⟩ := hlaid.ofStruct hd he
  have hpos : ∀ l ∈ layouts, 0 < l.align := by
    intro l hl
    obtain ⟨member, -, hmember⟩ := exists_right_of_forall₂ hall.flip l hl
    exact hmember.align_pos
  have hplaced := Placed.memberOffsets 0 hpos
  rw [← aggregate_eq hpos]
  refine ⟨layouts, membersEnd 0 layouts, hall.imp fun _ _ => hserves.layoutOfRef_eq,
    hplaced.length_eq.trans hall.length_eq.symm, hplaced,
    le_nextMultiple (greatestAlign_pos layouts), greatestAlign_eq_foldr layouts, fun offsets stop' hother => ?_⟩
  obtain ⟨hoffsets, hstop⟩ := hother.least hpos (Nat.le_refl 0)
  refine ⟨hoffsets, fun size hdvd hsize => ?_⟩
  exact nextMultiple_le (greatestAlign_pos layouts) (Nat.le_trans hstop hsize) hdvd

/-- A struct of eight and four bytes ends with four bytes of padding, and no way to place its
members gets along without them. -/
theorem layoutOf_least_shapes :
    ((Sizing.asked { interface := .shapes, abi := ⟨.c, .x86_64, .u32⟩ } []).layoutOf ⟨3⟩).1 =
      .ok { size := 16, align := 8, offsets := [0, 8] } ∧
    ∃ layouts stop, Placed 0 layouts [0, 8] stop ∧
      ∀ offsets stop', Placed 0 layouts offsets stop' → ∀ size, 8 ∣ size → stop' ≤ size →
        16 ≤ size := by
  have h : ((Sizing.asked { interface := .shapes, abi := ⟨.c, .x86_64, .u32⟩ } []).layoutOf ⟨3⟩).1 =
      .ok { size := 16, align := 8, offsets := [0, 8] } := by decide +kernel
  obtain ⟨-, -, hstruct⟩ := layoutOf_least .shapes ⟨.c, .x86_64, .u32⟩ [] ⟨3⟩ _ h
  obtain ⟨layouts, stop, -, -, hplaced, -, -, hleast⟩ :=
    hstruct Interface.shapes.decls[2] _ (by decide) rfl
  exact ⟨h, layouts, stop, hplaced, fun offsets stop' hother => (hleast offsets stop' hother).2⟩

end HostDecl
