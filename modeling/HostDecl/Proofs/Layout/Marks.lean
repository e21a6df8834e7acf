import HostDecl.Proofs.Layout.Cache

/-!
# A calculator that marks what it is inside of

`Interface.measure` is told on the way down which declarations it is inside of. A calculator can
also keep marks of them, beside the layouts that it has found: it marks a declaration when it goes
in, and takes the mark away when it comes out, with a layout or with a fault. `Interface.visit` is
that calculator, and `inStep_visit` says that it is in step with `Interface.measure`: the marks that
it has are always the declarations that the other one was told of. Between two questions there are
none (`Interface.visits_eq`).
-/

namespace HostDecl

/-- The layouts that have been found, and the declarations whose layout is being found. -/
structure Marks where
  known : KnownLayouts := []
  pending : List Ident := []

/-- Computations of layouts that mark what they are inside of. -/
abbrev Visiting :=
  ExceptT Fault (StateM Marks)

/-- Do something inside of a declaration. The mark goes whether there is an answer or a fault. -/
def Visiting.inside {α : Type} (id : Ident) (action : Visiting α) : Visiting α :=
  ExceptT.mk fun marks =>
    let (answer, after) := outcome action { marks with pending := id :: marks.pending }
    (answer, { after with pending := after.pending.filter fun other => other ≠ id })

namespace Interface

/-- The layout of a declaration, going no deeper than `depth`. -/
def visit (i : Interface) (abi : Abi) : Nat → Ident → Visiting Layout
  | 0, id => throw (.notEmitted none id)
  | depth + 1, id => do
    match (← get).known.lookup id with
    | some layout => pure layout
    | none =>
      match i.get? id with
      | none => throw (.notEmitted none id)
      | some d =>
        if id ∈ (← get).pending then
          throw (.containsItself d.name id)
        else
          let layout ← Visiting.inside id (abi.measureDecl (i.visit abi depth) d)
          modify fun marks => { marks with known := (id, layout) :: marks.known }
          pure layout

/-- One question. No way down is longer than there are declarations. -/
def visitQuery (i : Interface) (abi : Abi) : Sizing.Query → Visiting Layout
  | .decl id => i.visit abi (i.decls.length + 1) id
  | .ref type => abi.measureRef (i.visit abi (i.decls.length + 1)) type

/-- The answers to a sequence of questions, and the marks in the end. -/
def visits (i : Interface) (abi : Abi) (marks : Marks) :
    List Sizing.Query → List (Except Fault Layout) × Marks
  | [] => ([], marks)
  | query :: queries =>
    let (answer, next) := outcome (i.visitQuery abi query) marks
    let (answers, last) := i.visits abi next queries
    (answer :: answers, last)

end Interface

variable {i : Interface} {abi : Abi}

theorem outcome_inside {α : Type} (id : Ident) (action : Visiting α) (marks : Marks) :
    outcome (Visiting.inside id action) marks =
      ((outcome action { marks with pending := id :: marks.pending }).1,
        { (outcome action { marks with pending := id :: marks.pending }).2 with
          pending := (outcome action { marks with pending := id :: marks.pending }).2.pending.filter
            fun other => other ≠ id }) := rfl

theorem outcome_visit (depth : Nat) (id : Ident) (marks : Marks) :
    outcome (i.visit abi (depth + 1) id) marks = match marks.known.lookup id with
      | some layout => (.ok layout, marks)
      | none => match i.get? id with
        | none => (.error (.notEmitted none id), marks)
        | some d =>
          if id ∈ marks.pending then (.error (.containsItself d.name id), marks)
          else match outcome (Visiting.inside id (abi.measureDecl (i.visit abi depth) d)) marks with
            | (.ok layout, after) =>
              (.ok layout, { after with known := (id, layout) :: after.known })
            | (.error x, after) => (.error x, after) := by
  rw [Interface.visit, outcome_bind, outcome_get]
  dsimp only
  cases marks.known.lookup id with
  | some layout => rfl
  | none =>
      cases i.get? id with
      | none => rfl
      | some d =>
          dsimp only
          rw [outcome_bind, outcome_get]
          dsimp only
          split
          · rfl
          · rw [outcome_bind]
            rcases outcome (Visiting.inside id (abi.measureDecl (i.visit abi depth) d)) marks with
              ⟨x | l, k⟩ <;> rfl

/-! ## In step with the calculator -/

/-- The same layouts have been found, and the marks are those given. -/
def Marks.Holds (entered : List Ident) (known : KnownLayouts) (marks : Marks) : Prop :=
  marks = { known, pending := entered }

/-- The marks are what the calculator is told, before a visit and after it. -/
theorem inStep_visit {depth : Nat} {entered : List Ident} (h : i.unentered entered < depth)
    (id : Ident) : InStep (Marks.Holds entered) Eq (fun l l' => l' = l)
      (i.measure abi entered id) (i.visit abi depth id) := by
  -- Each visit enters a declaration that was not entered, so the depth never runs out.
  induction depth generalizing entered id with
  | zero => exact absurd h (Nat.not_lt_zero _)
  | succ depth ih =>
      rintro known _ rfl
      rw [outcome_measure, outcome_visit]
      dsimp only
      cases known.lookup id with
      | some layout => exact .ok rfl rfl
      | none =>
          cases hd : i.get? id with
          | none => exact .error rfl rfl
          | some d =>
              dsimp only
              split
              · exact .error rfl rfl
              · rename_i hid
                have hdepth : i.unentered (id :: entered) < depth :=
                  Nat.lt_of_lt_of_le (Interface.unentered_cons_lt hd hid) (Nat.le_of_lt_succ h)
                have hunmark : (id :: entered).filter (fun other => other ≠ id) = entered := by
                  rw [List.filter_cons_of_neg (by simp), List.filter_eq_self]
                  intro other hother
                  exact decide_eq_true fun heq => hid (heq ▸ hother)
                have hparts := inStep_measureDecl_same abi d (fun inner _ => ih hdepth inner)
                  known _ rfl
                rw [outcome_inside]
                generalize outcome (abi.measureDecl (i.measure abi (id :: entered)) d) known = p,
                  outcome (abi.measureDecl (i.visit abi depth) d) ⟨known, id :: entered⟩ = p'
                  at hparts
                cases hparts with
                | ok hl hs =>
                    subst hl hs
                    exact .ok rfl (congrArg (Marks.mk _) hunmark)
                | error hf hs =>
                    subst hf hs
                    exact .error rfl (congrArg (Marks.mk _) hunmark)

theorem inStep_visitQuery (i : Interface) (abi : Abi) (query : Sizing.Query) :
    InStep (Marks.Holds []) Eq (fun l l' => l' = l)
      (abi.measureRef (i.measure abi []) query.type) (i.visitQuery abi query) := by
  have hdepth : i.unentered [] < i.decls.length + 1 :=
    Nat.lt_succ_of_le (List.length_filter_le ..)
  cases query with
  | decl id => exact inStep_visit hdepth id
  | ref type => exact inStep_measureRef_same abi type fun inner _ => inStep_visit hdepth inner

/-- The answers are those of a calculator that is told what it is inside of, and no mark is
left. -/
theorem Interface.visits_eq (z : Sizing) (queries : List Sizing.Query) :
    (z.interface.visits z.abi { known := z.known } queries).1 = z.answers queries ∧
      (z.interface.visits z.abi { known := z.known } queries).2.pending = [] := by
  induction queries generalizing z with
  | nil => exact ⟨rfl, rfl⟩
  | cons query queries ih =>
      have hquery := inStep_visitQuery z.interface z.abi query z.known _ rfl
      rw [visits, Sizing.answers, Sizing.ask_eq, Sizing.answer_eq]
      dsimp only
      generalize outcome (z.abi.measureRef (z.interface.measure z.abi []) query.type) z.known = p,
        outcome (z.interface.visitQuery z.abi query) { known := z.known } = p' at hquery
      cases hquery with
      | @ok layout _ known _ hl hs =>
          subst hl hs
          obtain ⟨hrest, hnone⟩ := ih { z with known }
          exact ⟨congrArg (List.cons _) hrest, hnone⟩
      | @error fault _ known _ hf hs =>
          subst hf hs
          obtain ⟨hrest, hnone⟩ := ih { z with known }
          exact ⟨congrArg (List.cons _) hrest, hnone⟩

end HostDecl
