import HostDecl.AtomTable
import HostDecl.Interface.Basic

/-!
# Layouts of declared types

A layout is the size, the alignment and the member offsets of a type. An aggregate is laid out by
the rules of C: members in order, each at the next multiple of its alignment, the whole padded to
the greatest alignment of a member (`Layout.ofMembers`).

An alias is laid out as its target, a struct by its members, an enum as its discriminant; nothing
else has a layout. The computation walks from a declaration to those it contains. It keeps the
declarations that it has entered on the way down, and meeting one of them again means that a
type contains itself. As each entered declaration is another one of the interface, the walk ends
(`unentered_cons_lt`).

Layouts that have been found are kept, so that a type which is used many times is laid out once.
A failure keeps what was found before it and leaves nothing behind of what was under way.
-/

namespace HostDecl

/-! ## Layouts -/

structure Layout where
  size : Nat
  align : Nat
  offsets : List Nat := []
  deriving DecidableEq, Repr

/-- The least multiple of `align` that is not below `n`. -/
def roundUp (n align : Nat) : Nat :=
  n + (align - n % align) % align

/-- The members laid out so far: the bytes they take, their greatest alignment, their offsets. -/
structure Packing where
  size : Nat := 0
  align : Nat := 1
  offsets : List Nat := []
  deriving DecidableEq, Repr

namespace Packing

/-- One more member. -/
def place (p : Packing) (member : Layout) : Packing :=
  let offset := roundUp p.size member.align
  { size := offset + member.size
    align := max p.align member.align
    offsets := p.offsets ++ [offset] }

/-- The aggregate of the members. -/
def close (p : Packing) : Layout where
  size := roundUp p.size p.align
  align := p.align
  offsets := p.offsets

end Packing

/-- The layout of a struct whose members have the given layouts. -/
def Layout.ofMembers (members : List Layout) : Layout :=
  (members.foldl Packing.place {}).close

/-! ## Layouts of declarations -/

/-- What layouts depend on besides the declarations. -/
structure Abi where
  table : AtomTable
  arch : Arch
  discriminant : Atom

/-- The layout of an atom: that of the atom which the host's token has. -/
def Abi.atomLayout (abi : Abi) (a : Atom) : Layout :=
  let repr := abi.table.repr a
  { size := repr.bytes, align := abi.arch.alignOf repr }

/-- Layouts that have been found, the latest first. -/
abbrev KnownLayouts :=
  List (Ident × Layout)

/-- Computations that find layouts and can fail. -/
abbrev Measuring :=
  ExceptT Fault (StateM KnownLayouts)

namespace Abi

variable {σ : Type}

/-- The layout of what a reference refers to, given a way to the layouts of declarations. What a
computation keeps on its way is left to it. -/
def measureRef (abi : Abi) (measure : Ident → ExceptT Fault (StateM σ) Layout) :
    TypeRef → ExceptT Fault (StateM σ) Layout
  | .atom a => pure (abi.atomLayout a)
  | .decl id => measure id
  | .foreign _ => throw .notReference

/-- The layout of a declaration, given a way to those of the declarations it refers to. -/
def measureDecl (abi : Abi) (measure : Ident → ExceptT Fault (StateM σ) Layout) (d : Decl) :
    ExceptT Fault (StateM σ) Layout :=
  match d.entity with
  | .aliasOf target => abi.measureRef measure target
  | .struct members => do
    let layouts ← members.mapM fun member => abi.measureRef measure member.type
    pure (Layout.ofMembers layouts)
  | .enum _ => pure (abi.atomLayout abi.discriminant)
  | .function .. | .foreign _ => throw (.noLayout d.entity.kind d.name)

end Abi

namespace Interface

/-- How many declarations have not been entered. -/
def unentered (i : Interface) (entered : List Ident) : Nat :=
  (i.decls.filter fun d => d.id ∉ entered).length

/-- Entering a declaration that was not entered before leaves fewer. -/
theorem unentered_cons_lt {i : Interface} {entered : List Ident} {id : Ident} {d : Decl}
    (hd : i.get? id = some d) (hid : id ∉ entered) :
    i.unentered (id :: entered) < i.unentered entered := by
  have hcons : i.decls.filter (fun d => d.id ∉ id :: entered) =
      (i.decls.filter fun d => d.id ∉ entered).filter fun d => d.id ≠ id := by
    simp [List.filter_filter, not_or]
  have hmem : d ∈ i.decls.filter fun d => d.id ∉ entered :=
    List.mem_filter.mpr ⟨mem_of_get? hd, by simpa [id_of_get? hd] using hid⟩
  rw [unentered, unentered, hcons, List.length_filter_lt_length_iff_exists]
  exact ⟨d, hmem, by simp [id_of_get? hd]⟩

/-- The layout of a declaration, after the entered ones have been entered. -/
def measure (i : Interface) (abi : Abi) (entered : List Ident) (id : Ident) :
    Measuring Layout := do
  match (← get).lookup id with
  | some layout => pure layout
  | none =>
    match _hd : i.get? id with
    | none => throw (.notEmitted none id)
    | some d =>
      if _hid : id ∈ entered then
        throw (.containsItself d.name id)
      else
        let layout ← abi.measureDecl (fun inner => i.measure abi (id :: entered) inner) d
        modify fun known => (id, layout) :: known
        pure layout
termination_by i.unentered entered
decreasing_by exact unentered_cons_lt _hd _hid

end Interface

/-! ## Queries -/

/-- A calculator of layouts for one interface. -/
structure Sizing where
  interface : Interface
  abi : Abi
  known : KnownLayouts := []

namespace Sizing

/-- The answer of a computation, and the calculator that knows what it found. -/
def answer (s : Sizing) (action : Measuring Layout) : Except Fault Layout × Sizing :=
  let (result, known) := action.run.run s.known
  (result, { s with known })

/-- The layout of a declaration. -/
def layoutOf (s : Sizing) (id : Ident) : Except Fault Layout × Sizing :=
  s.answer (s.interface.measure s.abi [] id)

/-- The layout of what a reference refers to. -/
def layoutOfRef (s : Sizing) (type : TypeRef) : Except Fault Layout × Sizing :=
  s.answer (s.abi.measureRef (s.interface.measure s.abi []) type)

end Sizing

end HostDecl
