import HostDecl.Proofs.Layout.InStep

/-!
# What a calculator has found does not show

Two calculators of one interface may have been asked different questions and know different
layouts. The next question they answer alike all the same, with the same layout or the same fault
(`Sizing.Serves.matched_ask`), so the answers to a sequence of questions are those of calculators
that have not been asked anything (`Sizing.Serves.answers_eq`).

Where there is a layout, both answer it. Where there is none, neither of them knows one, so both
walk on to the parts, and the first part that fails there fails in both. What could go wrong is
that one of them knows a part and the other one comes back to a declaration that it is inside of;
but what is known has a layout, and such a declaration never contains itself.
-/

namespace HostDecl

open Measuring

variable {i : Interface} {abi : Abi}

/-! ## One visit -/

/-- A visit does not depend on what is known, as long as it is right. The declarations that are
entered contain the one that is visited. -/
theorem inStep_measure_known (abi : Abi) {entered : List Ident} {id : Ident}
    (hentered : ∀ outer ∈ entered, Relation.TransGen i.Contains outer id) :
    InStep (fun k k' => KnownLayouts.Sound i abi k ∧ KnownLayouts.Sound i abi k') Eq
      (fun l l' => l' = l) (i.measure abi entered id) (i.measure abi entered id) := by
  rintro known known' ⟨hk, hk'⟩
  by_cases hl : ∃ layout, i.LaidOut abi (.decl id) layout
  · obtain ⟨layout, hl⟩ := hl
    have hanswers : Answers i abi (i.measure abi entered id) layout :=
      answers_measureRef hl entered fun outer houter inner hinner =>
        TypeRef.decl.inj hinner ▸ hentered outer houter
    obtain ⟨t, ht, hsound⟩ := hanswers known hk
    obtain ⟨t', ht', hsound'⟩ := hanswers known' hk'
    rw [Yields] at ht ht'
    rw [ht, ht']
    exact .ok rfl ⟨hsound, hsound'⟩
  · -- What is known is right, so neither knows this one, and both go on to the same tests.
    have hmiss (k : KnownLayouts) (hk : k.Sound i abi) : k.lookup id = none :=
      Option.eq_none_iff_forall_ne_some.mpr fun layout h => hl ⟨layout, hk id layout h⟩
    rw [outcome_measure, outcome_measure, hmiss known hk, hmiss known' hk']
    cases hd : i.get? id with
    | none => exact .error rfl ⟨hk, hk'⟩
    | some d =>
        dsimp only
        split
        · exact .error rfl ⟨hk, hk'⟩
        · rename_i hid
          have hinner (inner : Ident) (hpart : .decl inner ∈ d.entity.parts) :
              ∀ outer ∈ id :: entered, Relation.TransGen i.Contains outer inner := by
            have hcontains : i.Contains id inner := ⟨d, hd, hpart⟩
            intro outer houter
            rcases List.mem_cons.mp houter with rfl | houter
            · exact .single hcontains
            · exact (hentered outer houter).tail hcontains
          have hparts := inStep_measureDecl_same abi d
            (fun inner hpart => inStep_measure_known abi (hinner inner hpart)) known known'
            ⟨hk, hk'⟩
          have hfinds := (finds_measureDecl
            (fun inner => finds_measure i abi (id :: entered) inner) hd known hk).2
          generalize outcome (abi.measureDecl (i.measure abi (id :: entered)) d) known = p,
            outcome (abi.measureDecl (i.measure abi (id :: entered)) d) known' = p'
            at hparts hfinds
          cases hparts with
          | ok => exact (hl ⟨_, hfinds _ rfl⟩).elim
          | error hf hs => exact .error hf hs
termination_by i.unentered entered
decreasing_by exact Interface.unentered_cons_lt hd (by assumption)

theorem inStep_measureRef_known (type : TypeRef) :
    InStep (fun k k' => KnownLayouts.Sound i abi k ∧ KnownLayouts.Sound i abi k') Eq
      (fun l l' => l' = l) (abi.measureRef (i.measure abi []) type)
      (abi.measureRef (i.measure abi []) type) :=
  inStep_measureRef_same abi type fun _ _ => inStep_measure_known abi nofun

namespace Sizing

/-! ## Questions -/

/-- A question to a calculator: for the layout of a declaration or of what a reference refers
to. -/
inductive Query where
  | decl (id : Ident)
  | ref (type : TypeRef)

def ask (z : Sizing) : Query → Except Fault Layout × Sizing
  | .decl id => z.layoutOf id
  | .ref type => z.layoutOfRef type

/-- The answers of one calculator to a sequence of questions. -/
def answers (z : Sizing) : List Query → List (Except Fault Layout)
  | [] => []
  | query :: queries => (z.ask query).1 :: (z.ask query).2.answers queries

/-- The calculator after a sequence of questions. -/
def asked (z : Sizing) (queries : List Query) : Sizing :=
  queries.foldl (fun z query => (z.ask query).2) z

/-- The answer of a calculator that has not been asked anything. -/
def fresh (i : Interface) (abi : Abi) (query : Query) : Except Fault Layout :=
  (ask { interface := i, abi } query).1

/-- A calculator that has not been asked anything answers a layout exactly if it is the layout of
the declaration. -/
theorem fresh_eq_ok_iff {id : Ident} {layout : Layout} :
    fresh i abi (.decl id) = .ok layout ↔ i.LaidOut abi (.decl id) layout :=
  layoutOf_eq_ok_iff (sound_new i abi)

/-- A declaration is asked for like a reference to it. -/
def Query.type : Query → TypeRef
  | .decl id => .decl id
  | .ref type => type

theorem ask_eq (z : Sizing) (query : Query) :
    z.ask query = z.answer (z.abi.measureRef (z.interface.measure z.abi []) query.type) := by
  cases query <;> rfl

/-- The calculator is one for the interface, and what it knows is right. -/
structure Serves (i : Interface) (abi : Abi) (z : Sizing) : Prop where
  interface : z.interface = i
  abi : z.abi = abi
  sound : z.Sound

theorem Serves.new (i : Interface) (abi : Abi) : Serves i abi { interface := i, abi } :=
  ⟨rfl, rfl, sound_new i abi⟩

/-- Two calculators for one interface answer alike, and are right afterwards as well. -/
theorem Serves.matched_ask {z z' : Sizing} (hz : z.Serves i abi) (hz' : z'.Serves i abi)
    (query : Query) :
    Matched (fun y y' => y.Serves i abi ∧ y'.Serves i abi) Eq (fun l l' => l' = l)
      (z.ask query) (z'.ask query) := by
  obtain ⟨rfl, rfl, hsound⟩ := hz
  obtain ⟨hi, habi, hsound'⟩ := hz'
  rw [ask_eq, ask_eq, hi, habi]
  have hsound'' : KnownLayouts.Sound z.interface z.abi z'.known := by rwa [← hi, ← habi]
  refine matched_answer (inStep_measureRef_known query.type _ _ ⟨hsound, hsound''⟩)
    fun k k' hs => ?_
  refine ⟨⟨rfl, rfl, hs.1⟩, hi, habi, ?_⟩
  simp only [Sound, hi, habi]
  exact hs.2

theorem Serves.asked {z : Sizing} (hz : z.Serves i abi) (queries : List Query) :
    (z.asked queries).Serves i abi := by
  induction queries generalizing z with
  | nil => exact hz
  | cons query queries ih =>
      have hnext : (z.ask query).2.Serves i abi := by
        have hask := hz.matched_ask hz query
        generalize z.ask query = p at hask ⊢
        cases hask with
        | ok _ hs => exact hs.1
        | error _ hs => exact hs.1
      exact ih hnext

/-- Each answer is that of a calculator that has not been asked anything. -/
theorem Serves.answers_eq {z : Sizing} (hz : z.Serves i abi) (queries : List Query) :
    z.answers queries = queries.map (fresh i abi) := by
  induction queries generalizing z with
  | nil => rfl
  | cons query queries ih =>
      have hask := hz.matched_ask (.new i abi) query
      rw [answers, List.map_cons, fresh]
      generalize z.ask query = p, ask { interface := i, abi } query = p' at hask
      cases hask with
      | ok hl hs => exact congrArg₂ List.cons (by rw [hl]) (ih hs.1)
      | error hf hs => exact congrArg₂ List.cons (by rw [hf]) (ih hs.1)

end Sizing

end HostDecl
