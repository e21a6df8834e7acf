import HostDecl.Proofs.InStep
import HostDecl.Proofs.Interface.Rename
import HostDecl.Proofs.Layout.Calculator

/-!
# Two calculations of layouts in step

What is done at one declaration is the same whatever the parts are asked of: if the parts of a
declaration are answered in step, so is the declaration (`inStep_measureDecl`). From this follows,
by induction on the declarations that are not entered yet, that a calculator does not look at
idents: one that has the same declarations under other idents gives the same answers, keeps the
same layouts, and fails with the same kind of fault (`Sizing.matched_layoutOf_rename`).
-/

namespace HostDecl

variable {σ σ' : Type} {r : Ident → Ident} {abi : Abi}

/-! ## Faults -/

/-- The faults are of one kind: of the same family and with the same code. A fault that has neither
is the same fault. -/
structure Fault.Alike (f f' : Fault) : Prop where
  family : f'.family? = f.family?
  code : f'.code? = f.code?
  silent : f.message? = none → f' = f

theorem Fault.Alike.refl (f : Fault) : f.Alike f :=
  ⟨rfl, rfl, fun _ => rfl⟩

theorem Fault.Alike.notEmitted (name name' : Option String) (id id' : Ident) :
    (Fault.notEmitted name id).Alike (.notEmitted name' id') :=
  ⟨rfl, rfl, nofun⟩

theorem Fault.Alike.containsItself (name : String) (id id' : Ident) :
    (Fault.containsItself name id).Alike (.containsItself name id') :=
  ⟨rfl, rfl, nofun⟩

theorem Fault.Alike.alreadyDefined (name existing : String) (id id' : Ident) :
    (Fault.alreadyDefined name id existing).Alike (.alreadyDefined name id' existing) :=
  ⟨rfl, rfl, nofun⟩

/-! ## One declaration -/

section

variable {I : σ → σ' → Prop} {E : Fault → Fault → Prop}
  {measure : Ident → ExceptT Fault (StateM σ) Layout}
  {measure' : Ident → ExceptT Fault (StateM σ') Layout}

theorem inStep_measureRef (abi : Abi) (hE : ∀ f, E f f) (type : TypeRef)
    (h : ∀ inner, type = .decl inner →
      InStep I E (fun l l' => l' = l) (measure inner) (measure' (r inner))) :
    InStep I E (fun l l' => l' = l) (abi.measureRef measure type)
      (abi.measureRef measure' (type.rename r)) := by
  cases type with
  | atom a => exact .pure rfl
  | decl inner => exact h inner rfl
  | foreign text => exact .throw (hE _)

/-- A declaration is measured in step if the declarations among its parts are. -/
theorem inStep_measureDecl (abi : Abi) (hE : ∀ f, E f f) (d : Decl)
    (h : ∀ inner, .decl inner ∈ d.entity.parts →
      InStep I E (fun l l' => l' = l) (measure inner) (measure' (r inner))) :
    InStep I E (fun l l' => l' = l) (abi.measureDecl measure d)
      (abi.measureDecl measure' (d.rename r)) := by
  rcases d with ⟨id, name, entity⟩
  cases entity with
  | aliasOf target =>
      refine inStep_measureRef abi hE target fun inner htype => h inner ?_
      simp [Entity.parts, htype]
  | struct members =>
      have hmembers : InStep I E (fun ls ls' => ls' = ls)
          (members.mapM fun member => abi.measureRef measure member.type)
          ((members.map (Field.rename r)).mapM fun member =>
            abi.measureRef measure' member.type) := by
        refine (InStep.mapM (P := fun _ => True) members fun member hmember => ?_).mono
          fun _ _ => And.left
        refine (inStep_measureRef abi hE member.type fun inner htype => h inner ?_).mono
          fun _ _ hl => ⟨hl, trivial⟩
        exact htype ▸ List.mem_map.mpr ⟨member, hmember, rfl⟩
      refine .bind hmembers ?_
      rintro _ layouts rfl
      exact .pure rfl
  | enum variants => exact .pure rfl
  | function args result => exact .throw (hE _)
  | foreign text => exact .throw (hE _)

/-- A reference is measured in step with itself if the declarations are. -/
theorem inStep_measureRef_same (abi : Abi) (type : TypeRef)
    (h : ∀ inner, type = .decl inner →
      InStep I Eq (fun l l' => l' = l) (measure inner) (measure' inner)) :
    InStep I Eq (fun l l' => l' = l) (abi.measureRef measure type)
      (abi.measureRef measure' type) := by
  have htype := inStep_measureRef abi (r := fun x => x) (fun f => rfl) type h
  rwa [TypeRef.rename_id] at htype

theorem inStep_measureDecl_same (abi : Abi) (d : Decl)
    (h : ∀ inner, .decl inner ∈ d.entity.parts →
      InStep I Eq (fun l l' => l' = l) (measure inner) (measure' inner)) :
    InStep I Eq (fun l l' => l' = l) (abi.measureDecl measure d) (abi.measureDecl measure' d) := by
  have hd := inStep_measureDecl abi (r := fun x => x) (fun f => rfl) d h
  rwa [Decl.rename_id] at hd

end

/-! ## Other idents -/

/-- What has been found, under other idents. -/
def KnownLayouts.rename (r : Ident → Ident) (known : KnownLayouts) : KnownLayouts :=
  known.map (Prod.map r fun layout => layout)

theorem KnownLayouts.lookup_rename (hr : Function.Injective r) (known : KnownLayouts)
    (id : Ident) : (known.rename r).lookup (r id) = known.lookup id :=
  lookup_map_fst hr known id

theorem inStep_measure_rename (hr : Function.Injective r) (i : Interface) (entered : List Ident)
    (id : Ident) :
    InStep (fun k k' => k' = KnownLayouts.rename r k) Fault.Alike (fun l l' => l' = l)
      (i.measure abi entered id) ((i.rename r).measure abi (entered.map r) (r id)) := by
  rintro known _ rfl
  rw [outcome_measure, outcome_measure, KnownLayouts.lookup_rename hr, Interface.get?_rename hr]
  cases known.lookup id with
  | some layout => exact .ok rfl rfl
  | none =>
      cases hd : i.get? id with
      | none => exact .error (.notEmitted ..) rfl
      | some d =>
          simp only [Option.map_some, List.mem_map_of_injective hr]
          split
          · exact .error (.containsItself ..) rfl
          · rename_i hid
            have hparts := inStep_measureDecl abi Fault.Alike.refl d
              (fun inner _ => inStep_measure_rename hr i (id :: entered) inner) known _ rfl
            rw [List.map_cons] at hparts
            generalize outcome (abi.measureDecl (i.measure abi (id :: entered)) d) known = p,
              outcome (abi.measureDecl ((i.rename r).measure abi (r id :: entered.map r))
                (d.rename r)) (KnownLayouts.rename r known) = p' at hparts
            cases hparts with
            | ok hl hk =>
                subst hl hk
                exact .ok rfl rfl
            | error hf hk => exact .error hf hk
termination_by i.unentered entered
decreasing_by exact Interface.unentered_cons_lt hd (by assumption)

namespace Sizing

theorem answer_eq (z : Sizing) (action : Measuring Layout) : z.answer action =
    ((outcome action z.known).1, { z with known := (outcome action z.known).2 }) := rfl

/-- Calculators answer in step if the computations that they are asked for are in step. -/
theorem matched_answer {J : Sizing → Sizing → Prop} {I : KnownLayouts → KnownLayouts → Prop}
    {E : Fault → Fault → Prop} {R : Layout → Layout → Prop} {z z' : Sizing}
    {action action' : Measuring Layout}
    (h : Matched I E R (outcome action z.known) (outcome action' z'.known))
    (hJ : ∀ k k', I k k' → J { z with known := k } { z' with known := k' }) :
    Matched J E R (z.answer action) (z'.answer action') := by
  rw [answer_eq, answer_eq]
  generalize outcome action z.known = p, outcome action' z'.known = p' at h
  cases h with
  | ok hl hk => exact .ok hl (hJ _ _ hk)
  | error hf hk => exact .error hf (hJ _ _ hk)

/-- The calculator for the same declarations under other idents. -/
def rename (r : Ident → Ident) (z : Sizing) : Sizing where
  interface := z.interface.rename r
  abi := z.abi
  known := z.known.rename r

/-- A calculator does not look at idents. -/
theorem matched_layoutOf_rename (hr : Function.Injective r) (z : Sizing) (id : Ident) :
    Matched (fun y y' => y' = y.rename r) Fault.Alike (fun l l' => l' = l)
      (z.layoutOf id) ((z.rename r).layoutOf (r id)) := by
  refine matched_answer (inStep_measure_rename hr z.interface [] id z.known _ rfl) ?_
  rintro k _ rfl
  rfl

end Sizing

end HostDecl
