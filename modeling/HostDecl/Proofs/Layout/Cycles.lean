import HostDecl.Proofs.Failures
import HostDecl.Proofs.Interface.Coherence
import HostDecl.Proofs.Layout.Calculator

/-!
# What stands in the way of a layout

A calculator that fails has come to a declaration that is not there, is no type, has a part that is
no reference, or contains itself, and its fault says so (`Sizing.layoutOf_blames`). The last of
these is one that has been entered, and each declaration that has been entered contains the next. In
a coherent interface only cycles are left (`Sizing.layoutOf_error`).
-/

namespace HostDecl

variable {i : Interface} {abi : Abi}

namespace Interface

/-- From the declaration one comes to another one that contains itself. -/
def MeetsCycle (i : Interface) (id : Ident) : Prop :=
  ∃ c, Relation.ReflTransGen i.Contains id c ∧ Relation.TransGen i.Contains c c

end Interface

/-- The fault is that a type contains itself, and the declaration meets a cycle. -/
def Fault.OfCycle (i : Interface) (id : Ident) (f : Fault) : Prop :=
  (∃ name c, f = .containsItself name c) ∧ i.MeetsCycle id

/-- The fault says what is wrong with a declaration that one comes to from `id`. -/
inductive Fault.Blames (i : Interface) (id : Ident) : Fault → Prop
  | undeclared {r : Ident} (hreach : Relation.ReflTransGen i.Contains id r)
      (h : i.get? r = none) : Blames i id (.notEmitted none r)
  | cyclic {r : Ident} {d : Decl} (hreach : Relation.ReflTransGen i.Contains id r)
      (hd : i.get? r = some d) (h : Relation.TransGen i.Contains r r) :
      Blames i id (.containsItself d.name r)
  | kind {r : Ident} {d : Decl} (hreach : Relation.ReflTransGen i.Contains id r)
      (hd : i.get? r = some d) (h : d.entity.isType = false) :
      Blames i id (.noLayout d.entity.kind d.name)
  | part {r : Ident} {d : Decl} {text : String} (hreach : Relation.ReflTransGen i.Contains id r)
      (hd : i.get? r = some d) (h : .foreign text ∈ d.entity.parts) : Blames i id .notReference

/-- What is wrong with a part is wrong with the whole. -/
theorem Fault.Blames.of_contains {id inner : Ident} {f : Fault} (h : i.Contains id inner)
    (hf : f.Blames i inner) : f.Blames i id := by
  cases hf with
  | undeclared hreach hnone => exact .undeclared (hreach.head h) hnone
  | cyclic hreach hd hcycle => exact .cyclic (hreach.head h) hd hcycle
  | kind hreach hd hkind => exact .kind (hreach.head h) hd hkind
  | part hreach hd hpart => exact .part (hreach.head h) hd hpart

/-! ## What a calculator fails with -/

/-- The layout of a declaration is refused for its kind, for text among its parts, or as that of one
of its parts is. -/
theorem failsOnly_measureDecl {measure : Ident → Measuring Layout} {E : Fault → Prop} {d : Decl}
    (hkind : d.entity.isType = false → E (.noLayout d.entity.kind d.name))
    (hforeign : ∀ text, .foreign text ∈ d.entity.parts → E .notReference)
    (h : ∀ inner, .decl inner ∈ d.entity.parts → ∀ known, FailsOnly (measure inner) known E)
    (known : KnownLayouts) : FailsOnly (abi.measureDecl measure d) known E := by
  have href (type : TypeRef) (hmem : type ∈ d.entity.parts) (known : KnownLayouts) :
      FailsOnly (abi.measureRef measure type) known E := by
    cases type with
    | atom a => exact .pure
    | decl inner => exact h inner hmem known
    | foreign text => exact .throw (hforeign text hmem)
  unfold Abi.measureDecl
  cases he : d.entity with
  | aliasOf target => exact href target (by simp [he, Entity.parts]) known
  | struct members =>
      refine .bind (.mapM_any fun member hmember => href member.type ?_) fun _ _ _ => .pure
      rw [he]
      exact List.mem_map.mpr ⟨member, hmember, rfl⟩
  | enum variants => exact .pure
  | function args result => exact .throw (he ▸ hkind (by rw [he]; rfl))
  | foreign text => exact .throw (he ▸ hkind (by rw [he]; rfl))

/-- A visit is refused if there is no declaration or if it has been entered, and fails otherwise as
the layout of the declaration does. -/
theorem failsOnly_visit {E : Fault → Prop} {entered : List Ident} {id : Ident}
    {known : KnownLayouts} (hnone : i.get? id = none → E (.notEmitted none id))
    (hself : ∀ d, i.get? id = some d → id ∈ entered → E (.containsItself d.name id))
    (hdecl : ∀ d, i.get? id = some d → id ∉ entered →
      FailsOnly (abi.measureDecl (i.measure abi (id :: entered)) d) known E) :
    FailsOnly (i.measure abi entered id) known E := by
  intro f t hf
  rw [outcome_measure] at hf
  cases hl : known.lookup id with
  | some layout =>
      rw [hl] at hf
      cases hf
  | none =>
      rw [hl] at hf
      cases hd : i.get? id with
      | none =>
          rw [hd] at hf
          cases hf
          exact hnone hd
      | some d =>
          rw [hd] at hf
          dsimp only at hf
          split at hf
          · rename_i hentered
            cases hf
            exact hself d hd hentered
          · rename_i hfresh
            rcases hr : outcome (abi.measureDecl (i.measure abi (id :: entered)) d) known with
              ⟨x | l, k⟩ <;> rw [hr] at hf <;> cases hf
            exact hdecl d hd hfresh _ _ hr

/-- A visit blames something that one comes to from the declaration, where each declaration that has
been entered contains the one that is visited. -/
theorem failsOnly_measure {entered : List Ident} {id : Ident}
    (hentered : ∀ outer ∈ entered, Relation.TransGen i.Contains outer id) (known : KnownLayouts) :
    FailsOnly (i.measure abi entered id) known (Fault.Blames i id) := by
  -- All that has been entered contains what is visited, so what is met again contains itself.
  refine failsOnly_visit (fun hnone => .undeclared .refl hnone)
    (fun d hd hmem => .cyclic .refl hd (hentered id hmem)) fun d hd hfresh => ?_
  refine failsOnly_measureDecl (fun hkind => .kind .refl hd hkind)
    (fun text htext => .part .refl hd htext) (fun inner hinner known => ?_) known
  have hcontains : i.Contains id inner := ⟨d, hd, hinner⟩
  refine (failsOnly_measure (fun outer houter => ?_) known).mono fun f hf =>
    hf.of_contains hcontains
  rcases List.mem_cons.mp houter with rfl | houter
  · exact .single hcontains
  · exact (hentered outer houter).tail hcontains
termination_by i.unentered entered
decreasing_by exact Interface.unentered_cons_lt hd (by assumption)

/-- The faults that come of what a declaration refers to: it is not there, it contains itself, it is
of a kind without a layout, or it is no reference at all. -/
inductive Fault.OfReference : Fault → Prop
  | notEmitted (name : Option String) (id : Ident) : OfReference (.notEmitted name id)
  | containsItself (name : String) (id : Ident) : OfReference (.containsItself name id)
  | noLayout (kind name : String) : OfReference (.noLayout kind name)
  | notReference : OfReference .notReference

theorem Fault.Blames.ofReference {id : Ident} {f : Fault} (h : f.Blames i id) : f.OfReference := by
  cases h with
  | undeclared => exact .notEmitted _ _
  | cyclic => exact .containsItself _ _
  | kind => exact .noLayout _ _
  | part => exact .notReference

/-! ## Coherent interfaces -/

/-- From a type of a coherent interface one only comes to types of the interface. -/
theorem Interface.Coherent.declaredIn (hi : i.Coherent) {id r : Ident}
    (hid : (TypeRef.decl id).DeclaredIn i.decls) (h : Relation.ReflTransGen i.Contains id r) :
    (TypeRef.decl r).DeclaredIn i.decls := by
  induction h with
  | refl => exact hid
  | tail _ hcontains _ =>
      obtain ⟨d, hd, hpart⟩ := hcontains
      exact hi.declared d (mem_of_get? hd) _ (List.mem_append_left _ hpart)

/-- Coherence rules out what else a visit can blame. -/
theorem Fault.Blames.ofCycle (hi : i.Coherent) {id : Ident}
    (hid : (TypeRef.decl id).DeclaredIn i.decls) {f : Fault} (h : f.Blames i id) :
    f.OfCycle i id := by
  have htype {r : Ident} {d : Decl} (hreach : Relation.ReflTransGen i.Contains id r)
      (hd : i.get? r = some d) : d.entity.isType = true := by
    obtain ⟨d', -, hd', htype⟩ := Interface.mem_of_declaredIn hi.distinct (fun _ h => h)
      (hi.declaredIn hid hreach)
    exact Option.some.inj (hd'.symm.trans hd) ▸ htype
  cases h with
  | undeclared hreach hnone =>
      obtain ⟨d, -, hd, -⟩ := Interface.mem_of_declaredIn hi.distinct (fun _ h => h)
        (hi.declaredIn hid hreach)
      rw [hd] at hnone
      cases hnone
  | cyclic hreach hd hcycle => exact ⟨⟨_, _, rfl⟩, _, hreach, hcycle⟩
  | kind hreach hd hkind =>
      rw [htype hreach hd] at hkind
      cases hkind
  | part hreach hd hpart =>
      exact (hi.declared _ (Interface.mem_of_get? hd) _ (List.mem_append_left _ hpart)).elim

/-! ## Types with a layout meet no cycle -/

theorem Interface.LaidOut.of_contains {id inner : Ident} {layout : Layout}
    (h : i.LaidOut abi (.decl id) layout) (hcontains : i.Contains id inner) :
    ∃ layout', i.LaidOut abi (.decl inner) layout' := by
  obtain ⟨d, hd, hpart⟩ := hcontains
  cases he : d.entity with
  | aliasOf target =>
      rw [he, Entity.parts, List.mem_singleton] at hpart
      exact ⟨layout, hpart ▸ h.ofAlias hd he⟩
  | struct members =>
      rw [he, Entity.parts, List.mem_map] at hpart
      obtain ⟨member, hmember, htype⟩ := hpart
      obtain ⟨layouts, -, hall⟩ := h.ofStruct hd he
      obtain ⟨layout', -, hlayout'⟩ := exists_right_of_forall₂ hall member hmember
      exact ⟨layout', htype ▸ hlayout'⟩
  | _ => simp [he, Entity.parts] at hpart

theorem Interface.LaidOut.not_meetsCycle {id : Ident} {layout : Layout}
    (h : i.LaidOut abi (.decl id) layout) : ¬ i.MeetsCycle id := by
  rintro ⟨c, hreach, hcycle⟩
  induction hreach using Relation.ReflTransGen.head_induction_on generalizing layout with
  | refl => exact h.not_contains_self hcycle
  | head hcontains _ ih =>
      obtain ⟨layout', h'⟩ := h.of_contains hcontains
      exact ih h'

/-! ## Calculators -/

/-- A calculator that fails says what is wrong with a declaration that one comes to. -/
theorem Sizing.layoutOf_blames {z : Sizing} {id : Ident} {f : Fault}
    (h : (z.layoutOf id).1 = .error f) : f.Blames z.interface id :=
  failsOnly_measure (by simp) z.known f _ (Prod.ext h rfl)

/-- A calculator fails only for what a declaration refers to. -/
theorem Sizing.layoutOf_fault {z : Sizing} {id : Ident} {f : Fault}
    (h : (z.layoutOf id).1 = .error f) : f.OfReference :=
  (layoutOf_blames h).ofReference

/-- A calculator that knows only right layouts finds the layout of a type exactly if the type meets
no cycle, and otherwise says that a type contains itself. -/
theorem Sizing.layoutOf_error (hi : i.Coherent) {z : Sizing} (hz : z.Sound)
    (hiz : z.interface = i) {id : Ident} (hid : (TypeRef.decl id).DeclaredIn i.decls) :
    (∀ f, (z.layoutOf id).1 = .error f → ∃ name c, f = .containsItself name c) ∧
      ((∃ f, (z.layoutOf id).1 = .error f) ↔ i.MeetsCycle id) := by
  subst hiz
  have hfails : ∀ f, (z.layoutOf id).1 = .error f → f.OfCycle z.interface id :=
    fun f hf => (z.layoutOf_blames hf).ofCycle hi hid
  refine ⟨fun f hf => (hfails f hf).1, fun ⟨f, hf⟩ => (hfails f hf).2, fun hcycle => ?_⟩
  cases hanswer : (z.layoutOf id).1 with
  | error f => exact ⟨f, rfl⟩
  | ok layout => exact ((layoutOf_eq_ok_iff hz).mp hanswer).not_meetsCycle hcycle |>.elim

end HostDecl
