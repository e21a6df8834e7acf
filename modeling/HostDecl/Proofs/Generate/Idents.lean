import HostDecl.Generate
import HostDecl.Proofs.Backend.Uniform
import HostDecl.Proofs.Generate.Acceptance
import HostDecl.Proofs.Layout.InStep

/-!
# Idents do not show

Whatever idents the declarations of an interface carry, the text is the same: `generate_rename`
says so for every interface, with or without doubled idents and dangling references, and for the
faults and diagnostics of runs that fail as well.

The sessions of the two runs are related by `Session.Renamed`. Their pages are the same only where
every type speaks of declarations that there are, as a comment falls back on an ident where there
is no name (`Interface.Closed`). A run of any other interface fails, and of a failure no text is
seen.
-/

namespace HostDecl

variable {V S : Type} {r : Ident → Ident} {i : Interface}

theorem Registry.extend_rename {α : Type} (reg : Registry α) (id : Ident) (value : α)
    (name : String) :
    (reg.extend id value name).rename r = (reg.rename r).extend (r id) value name := by
  simp [extend, rename]

/-- The types of the interface speak only of declarations that it has. -/
def Interface.Closed (i : Interface) : Prop :=
  ∀ d ∈ i.decls, d.entity.isFunction = false → ∀ type ∈ d.entity.parts, i.Declares type

/-- Two sessions that have gone the same way, the second with other idents. -/
structure Session.Renamed (r : Ident → Ident) (i : Interface) (s s' : Session V S) : Prop where
  page : i.Closed → s'.page = s.page
  defined : s'.defined = s.defined.rename r
  reporter : s'.reporter = s.reporter
  sizing : s'.sizing = s.sizing.map (Sizing.rename r)
  reported : s'.reported = s.reported
  own : s'.own = s.own
  declared : ∀ id ∈ s.defined.idents, i.Declares (.decl id)

namespace Session.Renamed

variable {s s' : Session V S}

theorem print (h : Renamed r i s s') {lines lines' : List Line} (hl : i.Closed → lines' = lines) :
    Renamed r i (s.print lines) (s'.print lines') :=
  { h with page := fun hc => congrArg₂ Page.print (h.page hc) (hl hc) }

theorem rest (h : Renamed r i s s') : Renamed r i s.rest s'.rest :=
  { h with page := fun hc => congrArg (Page.endBlock · {}) (h.page hc) }

theorem extend (h : Renamed r i s s') {id : Ident} (hid : i.Declares (.decl id)) (value : V)
    (name : String) : Renamed r i (s.register (s.defined.extend id value name))
      (s'.register (s'.defined.extend (r id) value name)) where
  __ := h
  defined := by simp [Registry.extend_rename, h.defined]
  declared id' hid' := by
    simp only [register_defined, Registry.idents_extend, List.mem_append,
      List.mem_singleton] at hid'
    rcases hid' with hold | rfl
    · exact h.declared id' hold
    · exact hid

theorem noted (h : Renamed r i s s') (table : AtomTable) (type : TypeRef) (location : Location) :
    Renamed r i (s.noted table type location) (s'.noted table (type.rename r) location) :=
  noted_rename r h h.reported (fun _ warning location => { h with
    reported := rfl
    reporter := congrArg (Reporter.warn · warning location) h.reporter }) table type location

/-- The calculators of the two sessions are the same but for the idents. -/
theorem sizingOf (h : Renamed r i s s') (hr : Function.Injective r) (abi : Abi) :
    Emission.sizingOf abi (i.rename r) s' = (Emission.sizingOf abi i s).rename r := by
  unfold Emission.sizingOf
  rw [h.sizing]
  cases s.sizing with
  | none => rfl
  | some z =>
      simp only [Option.map_some, Sizing.rename, (Interface.rename_injective hr).eq_iff]
      split <;> rfl

end Session.Renamed

/-- Lines may differ where something is spoken of that is not declared. -/
theorem inStep_line_rename {text text' : String} (depth : Nat) (h : i.Closed → text' = text) :
    InStep (Session.Renamed (V := V) (S := S) r i) Fault.Alike (fun _ _ => True)
      (Emission.line text depth) (Emission.line text' depth) := by
  intro s s' hs
  rw [outcome_line, outcome_line]
  exact .ok trivial (hs.print fun hc => by rw [h hc])

theorem inStep_endBlock_rename :
    InStep (Session.Renamed (V := V) (S := S) r i) Fault.Alike (fun _ _ => True)
      Emission.endBlock Emission.endBlock :=
  fun _ _ hs => .ok trivial hs.rest

section

variable (hr : Function.Injective r) (b : Backend V S) (i : Interface)

include hr

theorem inStep_emitHeader_rename {d : Decl} (hd : d ∈ i.decls)
    (hf : d.entity.isFunction = false) :
    InStep (Session.Renamed r i) Fault.Alike (fun _ _ => True)
      (b.emitHeader i d) (b.emitHeader (i.rename r) (d.rename r)) := by
  refine .bind inStep_endBlock_rename fun _ _ _ => inStep_line_rename 0 fun hc => ?_
  have hwords : (i.rename r).describe (d.entity.rename r) = i.describe d.entity :=
    Interface.describe_rename hr hf (hc d hd hf)
  simp [Decl.rename, hwords]

theorem inStep_define_rename {d : Decl} (hd : d ∈ i.decls) (value : V) :
    InStep (Session.Renamed r i) Fault.Alike (fun _ _ => True)
      (Emission.define (S := S) b.valueText d value)
      (Emission.define b.valueText (d.rename r) value) := by
  intro s s' hs
  have hget : s'.defined.get? (d.rename r).id = s.defined.get? d.id := by
    rw [hs.defined]
    exact s.defined.get?_rename hr d.id
  rw [outcome_define, outcome_define, hget]
  cases s.defined.get? d.id with
  | none => exact .ok trivial (hs.extend (Interface.declares_of_mem hd) value d.name)
  | some existing => exact .error (.alreadyDefined ..) hs

theorem inStep_resolve_rename (type : TypeRef) :
    InStep (Session.Renamed r i) Fault.Alike (fun value value' => value' = value ∧ i.Declares type)
      (Emission.resolve (S := S) b.atomType i type)
      (Emission.resolve b.atomType (i.rename r) (type.rename r)) := by
  intro s s' hs
  rw [outcome_resolve, outcome_resolve]
  cases type with
  | atom a => exact .ok ⟨rfl, trivial⟩ hs
  | decl id =>
      have hget : s'.defined.get? (r id) = s.defined.get? id := by
        rw [hs.defined]
        exact s.defined.get?_rename hr id
      simp only [TypeRef.rename, Registry.resolve, hget]
      cases hv : s.defined.get? id with
      | none => exact .error (.notEmitted ..) hs
      | some value =>
          refine .ok ⟨rfl, hs.declared id ?_⟩ hs
          rw [← Registry.get?_isSome_iff, hv]
          rfl
  | foreign text => exact .error (.refl _) hs

theorem inStep_layoutOf_rename (id : Ident) :
    InStep (Session.Renamed (V := V) (S := S) r i) Fault.Alike (fun l l' => l' = l)
      (Emission.layoutOf b.abi i id) (Emission.layoutOf b.abi (i.rename r) (r id)) := by
  refine .askSizing fun s s' hs => ?_
  rw [hs.sizingOf hr]
  refine (Sizing.matched_layoutOf_rename hr _ id).weaken ?_
  rintro z _ rfl
  exact { hs with sizing := rfl }

/-- The steps of every backend are in step under a renaming. -/
theorem coupling_rename :
    Coupling b r i (Session.Renamed r i) Fault.Alike i.Declares (· ∈ i.decls) where
  fault := .refl
  line text depth := inStep_line_rename depth fun _ => rfl
  endBlock := inStep_endBlock_rename
  header d hd hf := inStep_emitHeader_rename hr b i hd hf
  define d value hd := inStep_define_rename hr b i hd value
  resolve := inStep_resolve_rename hr b i
  layoutOf := inStep_layoutOf_rename hr b i
  checkWidening type location s s' hs := by
    rw [outcome_checkWidening, outcome_checkWidening]
    exact .ok trivial (hs.noted ..)
  warn w location s s' hs := by
    rw [outcome_warn, outcome_warn]
    exact .ok trivial { hs with reporter := congrArg (Reporter.warn · w location) hs.reporter }
  own s s' hs := hs.own
  hold s s' own hs := { hs with own := rfl }

end

/-- A backend makes the same text and the same diagnostics, or fails in the same way. -/
theorem Backend.matched_generate (b : Backend V S) (hb : b.Uniform) (hr : Function.Injective r)
    (i : Interface) (skipUnsupported : Bool) (reporter : Reporter) :
    Matched (fun p p' => p' = p) Fault.Alike (fun text text' => text' = text)
      (b.generate i skipUnsupported reporter)
      (b.generate (i.rename r) skipUnsupported reporter) := by
  have hstart : Session.Renamed r i (b.newSession reporter) (b.newSession reporter) :=
    { page := fun _ => rfl
      defined := rfl
      reporter := rfl
      sizing := rfl
      reported := rfl
      own := rfl
      declared := fun id h => by simp [newSession, Registry.idents] at h }
  have hrun := (coupling_rename hr b i).run hb (fun _ h => h) skipUnsupported _ _ hstart
  rw [generate_eq, generate_eq]
  generalize outcome (b.run i skipUnsupported) (b.newSession reporter) = p,
    outcome (b.run (i.rename r) skipUnsupported) (b.newSession reporter) = p' at hrun
  cases hrun with
  | ok hclosed hs => exact .ok (congrArg Page.text (hs.page hclosed)) hs.reporter
  | error hf hs => exact .error hf hs.reporter

/-- Idents do not show: with other idents in the place of the old ones, the text of an interface
is the same, or there is none for a reason of the same kind, and the diagnostics are the same. -/
theorem generate_rename (r : Ident → Ident) (hr : Function.Injective r) (i : Interface)
    (backend : String) (config : Config) (skipUnsupported : Bool) (reporter : Reporter) :
    Matched (fun reporter reporter' => reporter' = reporter) Fault.Alike
      (fun text text' => text' = text)
      (generate i backend config skipUnsupported reporter)
      (generate (i.rename r) backend config skipUnsupported reporter) := by
  unfold generate
  cases Host.find backend with
  | error fault => exact .error (.refl fault) rfl
  | ok host =>
      cases host with
      | rust => exact Backend.matched_generate _ (Rust.uniform config) hr i skipUnsupported reporter
      | c => exact Backend.matched_generate _ (C.uniform config) hr i skipUnsupported reporter
      | llvm => exact Backend.matched_generate _ (Llvm.uniform config) hr i skipUnsupported reporter

/-- The same text for declarations that carry negative idents, counted backwards. -/
theorem generate_rename_shapes :
    ∃ text reporter, generate .shapes "llvm" .linux false {} = (.ok text, reporter) ∧
      generate (Interface.shapes.rename fun id => ⟨-id.index⟩) "llvm" .linux false {} =
        (.ok text, reporter) := by
  have hr : Function.Injective fun id : Ident => (⟨-id.index⟩ : Ident) :=
    fun id id' h => congrArg Ident.mk (Int.neg_inj.mp (Ident.mk.inj h))
  obtain ⟨text, htext⟩ := generates_of_accepted .llvm .linux .shapes false {} (by decide)
    (by decide +kernel)
  have hfind : Host.find "llvm" = .ok .llvm := by decide +kernel
  have hgenerate : (generate .shapes "llvm" .linux false {}).1 = .ok text := by
    rw [generate, hfind]
    exact htext
  have hmatched := generate_rename _ hr .shapes "llvm" .linux false {}
  generalize generate .shapes "llvm" .linux false {} = p,
    generate (Interface.shapes.rename fun id => ⟨-id.index⟩) "llvm" .linux false {} = p'
    at hmatched hgenerate
  cases hmatched with
  | ok htext' hreporter =>
      cases hgenerate
      subst htext' hreporter
      exact ⟨_, _, rfl, rfl⟩
  | error => cases hgenerate

end HostDecl
