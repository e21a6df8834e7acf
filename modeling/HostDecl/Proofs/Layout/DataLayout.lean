import HostDecl.Proofs.Layout.LaidOut

/-!
# Layouts as a target defines them

A target says how scalars are aligned in its data layout, a text of specifications such as
`i64:32:64`: a kind of scalar and its width, then the alignment that the ABI asks for, all in bits.
Where it says nothing, scalars are aligned to their width, but for integers of 64 bits, which are
aligned to 32. An aggregate has its members in order, each at the next multiple of its alignment,
and ends at a multiple of the greatest alignment.

This reads layouts off the text that is given to LLVM, and it shares nothing with the calculator
of layouts but the type of its results. `Arch.scalar_eq` and `aggregate_eq` say that the two agree.
-/

namespace HostDecl

/-- The least multiple of `align` that is not below `n`. -/
def nextMultiple (n align : Nat) : Nat :=
  (n + align - 1) / align * align

/-! ## Scalars -/

/-- The kinds of scalars that data layouts speak of. -/
inductive ScalarKind where
  | integer
  | float
  deriving DecidableEq, Repr

def ScalarKind.letter : ScalarKind → Char
  | .integer => 'i'
  | .float => 'f'

/-- The number that some characters spell, if they are digits. -/
def number? (digits : List Char) : Option Nat :=
  if digits ≠ [] ∧ digits.all Char.isDigit then some (Nat.ofDigitChars 10 digits 0) else none

/-- The alignment that one specification gives to a scalar, if it is about that scalar. -/
def specifiedAlign? (kind : ScalarKind) (bits : Nat) (specification : List Char) : Option Nat :=
  match specification.splitOn ':' with
  | (letter :: width) :: align :: _ =>
    if letter = kind.letter ∧ number? width = some bits then number? align else none
  | _ => none

/-- The alignment of a scalar that no specification is about. -/
def defaultAlign : ScalarKind → Nat → Nat
  | .integer, 64 => 32
  | _, bits => bits

/-- The alignment of a scalar in bytes: the last specification about it counts. -/
def scalarAlign (dataLayout : String) (kind : ScalarKind) (bits : Nat) : Nat :=
  let specified := (dataLayout.toList.splitOn '-').filterMap (specifiedAlign? kind bits)
  specified.getLast?.getD (defaultAlign kind bits) / 8

/-- The layout of a scalar, which takes the bytes up to the place of another one behind it. -/
def scalar (dataLayout : String) (kind : ScalarKind) (bits : Nat) : Layout where
  size := nextMultiple ((bits + 7) / 8) (scalarAlign dataLayout kind bits)
  align := scalarAlign dataLayout kind bits

/-- The kind of scalar that stands for an atom; truth values are integers. -/
def Atom.scalarKind (a : Atom) : ScalarKind :=
  if a.isFloat then .float else .integer

/-- The layout of an atom's scalar is the one that calculators use. -/
theorem Arch.scalar_eq (arch : Arch) (a : Atom) :
    scalar arch.dataLayout a.scalarKind a.bits = { size := a.bytes, align := arch.alignOf a } := by
  have hall : ∀ a ∈ Atom.all, scalar arch.dataLayout a.scalarKind a.bits =
      { size := a.bytes, align := arch.alignOf a } := by
    cases arch <;> decide +kernel
  exact hall a a.mem_all

/-! ## Aggregates -/

/-- The offsets of members from `n` bytes on. -/
def memberOffsets : Nat → List Layout → List Nat
  | _, [] => []
  | n, member :: members =>
    nextMultiple n member.align ::
      memberOffsets (nextMultiple n member.align + member.size) members

/-- Where the last member ends, from `n` bytes on. -/
def membersEnd : Nat → List Layout → Nat
  | n, [] => n
  | n, member :: members => membersEnd (nextMultiple n member.align + member.size) members

/-- The greatest alignment of a member. -/
def greatestAlign : List Layout → Nat
  | [] => 1
  | member :: members => max member.align (greatestAlign members)

/-- The layout of an aggregate of members with the given layouts. -/
def aggregate (members : List Layout) : Layout where
  size := nextMultiple (membersEnd 0 members) (greatestAlign members)
  align := greatestAlign members
  offsets := memberOffsets 0 members

theorem nextMultiple_eq {n align : Nat} (h : 0 < align) :
    nextMultiple n align = roundUp n align := by
  unfold nextMultiple roundUp
  have hlt := Nat.mod_lt n h
  have hdiv := Nat.div_add_mod n align
  by_cases hzero : n % align = 0
  · have hq : (n + align - 1) / align = n / align := by
      rw [show n + align - 1 = align - 1 + align * (n / align) by omega,
        Nat.add_mul_div_left _ _ h, Nat.div_eq_of_lt (by omega), Nat.zero_add]
    rw [hq, hzero, Nat.sub_zero, Nat.mod_self, Nat.mul_comm]
    omega
  · have hq : (n + align - 1) / align = n / align + 1 := by
      rw [show n + align - 1 = n % align - 1 + align * (n / align + 1) by
          rw [Nat.mul_add]; omega,
        Nat.add_mul_div_left _ _ h, Nat.div_eq_of_lt (by omega), Nat.zero_add]
    rw [hq, Nat.mod_eq_of_lt (by omega), Nat.mul_comm, Nat.mul_add]
    omega

/-- Packing members from a state on, side by side with the functions above. -/
theorem foldl_place (members : List Layout) (p : Packing)
    (h : ∀ member ∈ members, 0 < member.align) :
    members.foldl Packing.place p =
      { size := membersEnd p.size members
        align := max p.align (members.foldr (fun member a => max member.align a) 0)
        offsets := p.offsets ++ memberOffsets p.size members } := by
  induction members generalizing p with
  | nil => simp [membersEnd, memberOffsets]
  | cons member members ih =>
      obtain ⟨hmember, hrest⟩ := List.forall_mem_cons.mp h
      rw [List.foldl_cons, ih _ hrest]
      simp [Packing.place, membersEnd, memberOffsets, nextMultiple_eq hmember, Nat.max_assoc]

theorem greatestAlign_eq (members : List Layout) :
    greatestAlign members = max 1 (members.foldr (fun member a => max member.align a) 0) := by
  induction members with
  | nil => rfl
  | cons member members ih =>
      rw [greatestAlign, ih, List.foldr_cons]
      omega

theorem greatestAlign_pos (members : List Layout) : 0 < greatestAlign members := by
  rw [greatestAlign_eq]
  omega

/-- The two ways to lay out an aggregate agree. -/
theorem aggregate_eq {members : List Layout} (h : ∀ member ∈ members, 0 < member.align) :
    aggregate members = Layout.ofMembers members := by
  have halign := greatestAlign_eq members
  rw [Layout.ofMembers, foldl_place members {} h]
  simp only [Packing.close, aggregate, ← halign, List.nil_append,
    nextMultiple_eq (greatestAlign_pos members)]

theorem Packing.length_offsets_foldl (members : List Layout) (p : Packing) :
    (members.foldl Packing.place p).offsets.length = p.offsets.length + members.length := by
  induction members generalizing p with
  | nil => rfl
  | cons member members ih =>
      rw [List.foldl_cons, ih]
      simp [place]
      omega

/-- Every member has an offset. -/
theorem Layout.length_offsets_ofMembers (members : List Layout) :
    (Layout.ofMembers members).offsets.length = members.length := by
  have hlen := Packing.length_offsets_foldl members {}
  rwa [List.length_nil, Nat.zero_add] at hlen

namespace Interface.LaidOut

variable {i : Interface} {abi : Abi} {members : List Field} {layouts : List Layout}

/-- What has a layout is aligned to something. -/
theorem align_pos {type : TypeRef} {layout : Layout} (h : i.LaidOut abi type layout) :
    0 < layout.align := by
  induction h with
  | atom a => exact abi.arch.alignOf_pos _
  | aliasOf hd he _ ih => exact ih
  | struct hd he hlen _ ih =>
      rw [← aggregate_eq (forall_of_zip hlen ih)]
      exact greatestAlign_pos _
  | enum hd he => exact abi.arch.alignOf_pos _

/-- Of the members of a struct the target makes the layout of the struct. -/
theorem aggregate_eq (hlen : members.length = layouts.length)
    (h : ∀ p ∈ members.zip layouts, i.LaidOut abi p.1.type p.2) :
    aggregate layouts = .ofMembers layouts :=
  HostDecl.aggregate_eq (forall_of_zip hlen fun p hp => (h p hp).align_pos)

end Interface.LaidOut

end HostDecl
