import HostDecl.Proofs.Layout.Cycles
import HostDecl.Proofs.Layout.Marks

/-!
# Which declarations have a layout

A declaration has a layout exactly if all that one comes to from it, by walking into parts, are
types whose parts are references, and none of them contains itself
(`layout_iff_nothing_contains_itself`). One half follows the layouts down, the other one is what the
faults say: a calculator that fails names something that stands in the way. However often a type is
used, it is refused only where it lies on a cycle.

The walk ends by itself. A calculator that goes no deeper than a given depth answers the same at
every depth greater than the number of declarations.
-/

namespace HostDecl

variable {i : Interface} {abi : Abi}

/-- The ident stands for a type, and the parts of its declaration are atoms or idents. -/
def Interface.Typed (i : Interface) (id : Ident) : Prop :=
  ∃ d, i.get? id = some d ∧ d.entity.isType = true ∧
    ∀ type ∈ d.entity.parts, (∃ a, type = .atom a) ∨ ∃ inner, type = .decl inner

namespace Interface

namespace LaidOut

/-- A reference with a layout is one. -/
theorem atom_or_decl {type : TypeRef} {layout : Layout} (h : i.LaidOut abi type layout) :
    (∃ a, type = .atom a) ∨ ∃ inner, type = .decl inner := by
  cases h with
  | atom a => exact .inl ⟨a, rfl⟩
  | aliasOf => exact .inr ⟨_, rfl⟩
  | struct => exact .inr ⟨_, rfl⟩
  | enum => exact .inr ⟨_, rfl⟩

theorem typed {id : Ident} {layout : Layout} (h : i.LaidOut abi (.decl id) layout) :
    i.Typed id := by
  cases h with
  | aliasOf hd he h =>
      refine ⟨_, hd, by rw [he]; rfl, fun type htype => ?_⟩
      rw [he, Entity.parts, List.mem_singleton] at htype
      exact htype ▸ h.atom_or_decl
  | @struct _ _ members layouts hd he hlen h =>
      refine ⟨_, hd, by rw [he]; rfl, fun type htype => ?_⟩
      rw [he, Entity.parts, List.mem_map] at htype
      obtain ⟨member, hmember, rfl⟩ := htype
      have hall : List.Forall₂ (fun member l => i.LaidOut abi member.type l) members layouts :=
        List.forall₂_iff_zip.mpr ⟨hlen, fun hp => h _ hp⟩
      obtain ⟨layout, -, hlayout⟩ := exists_right_of_forall₂ hall member hmember
      exact hlayout.atom_or_decl
  | enum hd he => exact ⟨_, hd, by rw [he]; rfl, by simp [he, Entity.parts]⟩

/-- All that one comes to from a declaration with a layout has one. -/
theorem of_reaches {id r : Ident} {layout : Layout} (h : i.LaidOut abi (.decl id) layout)
    (hreach : Relation.ReflTransGen i.Contains id r) :
    ∃ layout', i.LaidOut abi (.decl r) layout' := by
  induction hreach with
  | refl => exact ⟨layout, h⟩
  | tail _ hcontains ih =>
      obtain ⟨layout', h'⟩ := ih
      exact h'.of_contains hcontains

end LaidOut

end Interface

/-- Where all that one comes to is typed and nothing contains itself, there is nothing to blame. -/
theorem Fault.Blames.elim {id : Ident} {f : Fault} (h : f.Blames i id)
    (hall : ∀ r, Relation.ReflTransGen i.Contains id r →
      i.Typed r ∧ ¬ Relation.TransGen i.Contains r r) : False := by
  cases h with
  | undeclared hreach hnone =>
      obtain ⟨⟨d, hd, -⟩, -⟩ := hall _ hreach
      rw [hd] at hnone
      cases hnone
  | cyclic hreach _ hcycle => exact (hall _ hreach).2 hcycle
  | kind hreach hd hkind =>
      obtain ⟨⟨d, hd', htype, -⟩, -⟩ := hall _ hreach
      obtain rfl := Option.some.inj (hd'.symm.trans hd)
      rw [hkind] at htype
      cases htype
  | part hreach hd hpart =>
      obtain ⟨⟨d, hd', -, hparts⟩, -⟩ := hall _ hreach
      obtain rfl := Option.some.inj (hd'.symm.trans hd)
      rcases hparts _ hpart with ⟨a, h⟩ | ⟨inner, h⟩ <;> cases h

/-- Only a declaration that contains itself is called one. -/
theorem Fault.Blames.of_code {id : Ident} {f : Fault} (h : f.Blames i id)
    (hcode : f.code? = some "CE0006") :
    ∃ r d, f = .containsItself d.name r ∧ i.get? r = some d ∧
      Relation.ReflTransGen i.Contains id r ∧ Relation.TransGen i.Contains r r := by
  cases h with
  | undeclared => exact absurd (Option.some.inj hcode) (by decide)
  | cyclic hreach hd hcycle => exact ⟨_, _, rfl, hd, hreach, hcycle⟩
  | kind => exact absurd (Option.some.inj hcode) (by decide)
  | part => cases hcode

/-! ## How deep a walk goes -/

/-- A calculator that goes deeper than there are declarations answers as the one that goes as deep
as it likes. -/
theorem Interface.visit_eq (i : Interface) (abi : Abi) {depth : Nat} (h : i.decls.length < depth)
    (id : Ident) (known : KnownLayouts) :
    (outcome (i.visit abi depth id) { known }).1 = (outcome (i.measure abi [] id) known).1 := by
  have hdepth : i.unentered [] < depth := Nat.lt_of_le_of_lt (List.length_filter_le ..) h
  have hwalk : InStep (Marks.Holds []) Eq (fun l l' => l' = l)
      (i.measure abi [] id) (i.visit abi depth id) := inStep_visit hdepth id
  have hstep := hwalk known { known } rfl
  generalize outcome (i.measure abi [] id) known = p, outcome (i.visit abi depth id) { known } = p'
    at hstep
  cases hstep with
  | ok hl _ => exact congrArg Except.ok hl
  | error hf _ => exact congrArg Except.error hf.symm

/-! ## Calculators -/

/-- Whatever a calculator has been asked before, it answers every question about a declaration, and
it would do so if it went no deeper than one more than there are declarations. It answers a layout
exactly if all that one comes to from the declaration, by walking into the targets of aliases and
the members of structs, are aliases, structs or enums whose parts are atoms or idents, and none of
them contains itself. If it says of a declaration that it contains itself, one comes to that one and it
does. So where there is no such declaration, it never says so. -/
theorem layout_iff_nothing_contains_itself (i : Interface) (abi : Abi)
    (queries : List Sizing.Query) (id : Ident) :
    (∀ depth, i.decls.length < depth →
      (outcome (i.visit abi depth id)
          { known := (Sizing.asked { interface := i, abi } queries).known }).1 =
        ((Sizing.asked { interface := i, abi } queries).layoutOf id).1) ∧
    ((∃ layout, ((Sizing.asked { interface := i, abi } queries).layoutOf id).1 = .ok layout) ↔
      ∀ r, Relation.ReflTransGen i.Contains id r →
        i.Typed r ∧ ¬ Relation.TransGen i.Contains r r) ∧
    (∀ f, ((Sizing.asked { interface := i, abi } queries).layoutOf id).1 = .error f →
      f.code? = some "CE0006" →
        ∃ r d, f = .containsItself d.name r ∧ i.get? r = some d ∧
          Relation.ReflTransGen i.Contains id r ∧ Relation.TransGen i.Contains r r) ∧
    (¬ i.MeetsCycle id →
      ∀ f, ((Sizing.asked { interface := i, abi } queries).layoutOf id).1 = .error f →
        f.code? ≠ some "CE0006") := by
  have hserves := (Sizing.Serves.new i abi).asked queries
  generalize Sizing.asked { interface := i, abi } queries = z at hserves
  obtain ⟨rfl, rfl, hsound⟩ := hserves
  refine ⟨fun depth hdepth => z.interface.visit_eq z.abi hdepth id z.known, ?_,
    fun f hf hcode => (Sizing.layoutOf_blames hf).of_code hcode, fun hno f hf hcode => ?_⟩
  · constructor
    · rintro ⟨layout, hlayout⟩ r hreach
      have hlaid := (Sizing.layoutOf_eq_ok_iff hsound).mp hlayout
      obtain ⟨layout', hlaid'⟩ := hlaid.of_reaches hreach
      exact ⟨hlaid'.typed, hlaid'.not_contains_self⟩
    · intro hall
      cases hanswer : (z.layoutOf id).1 with
      | ok layout => exact ⟨layout, rfl⟩
      | error f => exact ((Sizing.layoutOf_blames hanswer).elim hall).elim
  · obtain ⟨r, d, -, -, hreach, hcycle⟩ := (Sizing.layoutOf_blames hf).of_code hcode
    exact hno ⟨r, hreach, hcycle⟩

end HostDecl
