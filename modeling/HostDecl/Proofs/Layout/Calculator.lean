import HostDecl.Proofs.Layout.LaidOut
import HostDecl.Proofs.Outcome

/-!
# The calculator finds exactly the layouts there are

`Interface.measure` keeps what it has found and refuses a declaration that it is already inside of.
Neither shows: while the kept layouts are right (`KnownLayouts.Sound`), what a computation answers
is the layout of the reference (`finds_measure`), what it keeps is right as well, and a reference
that has a layout is answered (`answers_measureRef`). For the second half the declarations on the
way down only have to contain the one that is asked for: a declaration with a layout does not
contain itself, so the refusal never strikes.

For a calculator this comes to `Sizing.layoutOf_eq_ok_iff`.
-/

namespace HostDecl

variable {i : Interface} {abi : Abi} {α β : Type}

/-- Every layout that has been kept is the layout of its declaration. -/
def KnownLayouts.Sound (i : Interface) (abi : Abi) (known : KnownLayouts) : Prop :=
  ∀ id layout, known.lookup id = some layout → i.LaidOut abi (.decl id) layout

theorem KnownLayouts.Sound.cons {known : KnownLayouts} (hk : known.Sound i abi) {id : Ident}
    {layout : Layout} (h : i.LaidOut abi (.decl id) layout) :
    KnownLayouts.Sound i abi ((id, layout) :: known) := by
  intro id' layout' hl
  rw [List.lookup_cons] at hl
  split at hl
  · rename_i heq
    obtain rfl := eq_of_beq heq
    obtain rfl := Option.some.inj hl
    exact h
  · exact hk id' layout' hl

namespace Measuring

/-! ## Answers are right -/

/-- Whatever the action comes to, it keeps right layouts right, and an answer of it has the
property `P`. -/
def Finds (i : Interface) (abi : Abi) (e : Measuring α) (P : α → Prop) : Prop :=
  ∀ known : KnownLayouts, known.Sound i abi →
    (outcome e known).2.Sound i abi ∧ ∀ a, (outcome e known).1 = .ok a → P a

theorem Finds.pure {a : α} {P : α → Prop} (h : P a) : Finds i abi (pure a) P := by
  intro known hk
  rw [outcome_pure]
  refine ⟨hk, fun b hb => ?_⟩
  obtain rfl := Except.ok.inj hb
  exact h

theorem Finds.throw {x : Fault} {P : α → Prop} : Finds i abi (throw x) P := by
  intro known hk
  rw [outcome_throw]
  exact ⟨hk, fun b hb => by cases hb⟩

theorem Finds.bind {e : Measuring α} {f : α → Measuring β} {P : α → Prop} {Q : β → Prop}
    (he : Finds i abi e P) (hf : ∀ a, P a → Finds i abi (f a) Q) : Finds i abi (e >>= f) Q := by
  intro known hk
  obtain ⟨hsound, hans⟩ := he known hk
  rw [outcome_bind]
  rcases hr : outcome e known with ⟨x | a, known'⟩ <;> rw [hr] at hsound hans
  · exact ⟨hsound, fun b hb => by cases hb⟩
  · exact hf a (hans a rfl) known' hsound

theorem Finds.mapM {f : α → Measuring β} {R : α → β → Prop} (xs : List α)
    (hf : ∀ x, Finds i abi (f x) (R x)) : Finds i abi (xs.mapM f) (List.Forall₂ R xs) := by
  induction xs with
  | nil =>
      rw [List.mapM_nil]
      exact .pure .nil
  | cons x xs ih =>
      rw [List.mapM_cons]
      exact .bind (hf x) fun b hb => .bind ih fun bs hbs => .pure (.cons hb hbs)

theorem finds_measureRef {measure : Ident → Measuring Layout}
    (h : ∀ id, Finds i abi (measure id) (i.LaidOut abi (.decl id))) (type : TypeRef) :
    Finds i abi (abi.measureRef measure type) (i.LaidOut abi type) := by
  cases type with
  | atom a => exact .pure (.atom a)
  | decl id => exact h id
  | foreign text => exact .throw

theorem finds_measureDecl {measure : Ident → Measuring Layout}
    (h : ∀ id, Finds i abi (measure id) (i.LaidOut abi (.decl id))) {id : Ident} {d : Decl}
    (hd : i.get? id = some d) :
    Finds i abi (abi.measureDecl measure d) (i.LaidOut abi (.decl id)) := by
  unfold Abi.measureDecl
  cases he : d.entity with
  | aliasOf target =>
      intro known hk
      obtain ⟨hsound, hans⟩ := finds_measureRef h target known hk
      exact ⟨hsound, fun layout hl => .aliasOf hd he (hans layout hl)⟩
  | struct members =>
      refine .bind (.mapM members fun member => finds_measureRef h member.type) ?_
      exact fun layouts hall => .pure (.struct' hd he hall)
  | enum variants => exact .pure (.enum hd he)
  | function args result => exact .throw
  | foreign text => exact .throw

end Measuring

open Measuring

/-- One visit of a declaration: what is kept is answered, then come the tests, then the parts. -/
theorem outcome_measure (i : Interface) (abi : Abi) (entered : List Ident) (id : Ident)
    (known : KnownLayouts) :
    outcome (i.measure abi entered id) known = match known.lookup id with
      | some layout => (.ok layout, known)
      | none => match i.get? id with
        | none => (.error (.notEmitted none id), known)
        | some d =>
          if id ∈ entered then (.error (.containsItself d.name id), known)
          else match outcome (abi.measureDecl (i.measure abi (id :: entered)) d) known with
            | (.ok layout, known') => (.ok layout, (id, layout) :: known')
            | (.error x, known') => (.error x, known') := by
  rw [Interface.measure, outcome_bind, outcome_get]
  dsimp only
  cases hl : known.lookup id with
  | some layout => rfl
  | none =>
      dsimp only
      split
      · rename_i hd
        rw [hd]
        rfl
      · rename_i d hd
        rw [hd]
        dsimp only
        split
        · rfl
        · rw [outcome_bind]
          rcases outcome (abi.measureDecl (i.measure abi (id :: entered)) d) known with ⟨x | l, k⟩
          · rfl
          · rfl

theorem finds_measure (i : Interface) (abi : Abi) (entered : List Ident) (id : Ident) :
    Finds i abi (i.measure abi entered id) (i.LaidOut abi (.decl id)) := by
  intro known hk
  rw [outcome_measure]
  cases hl : known.lookup id with
  | some layout =>
      refine ⟨hk, fun l h => ?_⟩
      obtain rfl := Except.ok.inj h
      exact hk id _ hl
  | none =>
      cases hd : i.get? id with
      | none => exact ⟨hk, fun l h => by cases h⟩
      | some d =>
          dsimp only
          split
          · exact ⟨hk, fun l h => by cases h⟩
          · rename_i hid
            have hinner := finds_measureDecl
              (fun inner => finds_measure i abi (id :: entered) inner) hd known hk
            rcases hr : outcome (abi.measureDecl (i.measure abi (id :: entered)) d) known with
              ⟨x | l, k⟩ <;> rw [hr] at hinner
            · exact ⟨hinner.1, fun l h => by cases h⟩
            · refine ⟨hinner.1.cons (hinner.2 l rfl), fun l' h => ?_⟩
              obtain rfl := Except.ok.inj h
              exact hinner.2 _ rfl
termination_by i.unentered entered
decreasing_by exact Interface.unentered_cons_lt hd (by assumption)

/-! ## What has a layout is answered -/

namespace Measuring

/-- With right layouts kept, the action answers `a` and keeps right ones. -/
def Answers (i : Interface) (abi : Abi) (e : Measuring α) (a : α) : Prop :=
  ∀ known : KnownLayouts, known.Sound i abi →
    ∃ known' : KnownLayouts, Yields e known a known' ∧ known'.Sound i abi

theorem Answers.pure {a : α} : Answers i abi (pure a) a :=
  fun known hk => ⟨known, yields_pure.mpr ⟨rfl, rfl⟩, hk⟩

theorem Answers.bind {e : Measuring α} {f : α → Measuring β} {a : α} {b : β}
    (he : Answers i abi e a) (hf : Answers i abi (f a) b) : Answers i abi (e >>= f) b := by
  intro known hk
  obtain ⟨known₁, h₁, hk₁⟩ := he known hk
  obtain ⟨known₂, h₂, hk₂⟩ := hf known₁ hk₁
  exact ⟨known₂, yields_bind.mpr ⟨a, known₁, h₁, h₂⟩, hk₂⟩

theorem Answers.mapM {f : α → Measuring β} {xs : List α} {bs : List β}
    (h : List.Forall₂ (fun x b => Answers i abi (f x) b) xs bs) :
    Answers i abi (xs.mapM f) bs := by
  induction h with
  | nil =>
      rw [List.mapM_nil]
      exact .pure
  | cons hx _ ih =>
      rw [List.mapM_cons]
      exact .bind hx (.bind ih .pure)

/-- A declaration is answered when its parts are, unless it is entered already. -/
theorem answers_measure {entered : List Ident} {id : Ident} {d : Decl} {layout : Layout}
    (hd : i.get? id = some d) (hid : id ∉ entered)
    (hlayout : i.LaidOut abi (.decl id) layout)
    (h : Answers i abi (abi.measureDecl (i.measure abi (id :: entered)) d) layout) :
    Answers i abi (i.measure abi entered id) layout := by
  intro known hk
  unfold Yields
  rw [outcome_measure]
  cases hl : known.lookup id with
  | some layout' =>
      obtain rfl := (hk id layout' hl).unique hlayout
      exact ⟨known, rfl, hk⟩
  | none =>
      obtain ⟨known', hy, hk'⟩ := h known hk
      rw [hd]
      dsimp only
      rw [if_neg hid, show outcome _ known = _ from hy]
      exact ⟨_, rfl, hk'.cons hlayout⟩

theorem answers_measureRef {type : TypeRef} {layout : Layout} (h : i.LaidOut abi type layout) :
    ∀ entered, (∀ outer ∈ entered, ∀ id, type = .decl id →
      Relation.TransGen i.Contains outer id) →
    Answers i abi (abi.measureRef (i.measure abi entered) type) layout := by
  have hfresh : ∀ {id : Ident} {layout : Layout} {entered : List Ident},
      i.LaidOut abi (.decl id) layout →
      (∀ outer ∈ entered, ∀ inner, TypeRef.decl id = .decl inner →
        Relation.TransGen i.Contains outer inner) → id ∉ entered :=
    fun hl hentered hmem => hl.not_contains_self (hentered _ hmem _ rfl)
  induction h with
  | atom a => exact fun _ _ => .pure
  | @aliasOf id d target layout hd he hl ih =>
      intro entered hentered
      have hself := Interface.LaidOut.aliasOf hd he hl
      refine answers_measure hd (hfresh hself hentered) hself ?_
      simp only [Abi.measureDecl, he]
      refine ih _ fun outer houter inner htype => ?_
      have hpart : i.Contains id inner := ⟨d, hd, by simp [he, Entity.parts, htype]⟩
      rcases List.mem_cons.mp houter with rfl | houter
      · exact .single hpart
      · exact (hentered outer houter id rfl).tail hpart
  | @struct id d members layouts hd he hlen hl ih =>
      intro entered hentered
      have hself := Interface.LaidOut.struct hd he hlen hl
      refine answers_measure hd (hfresh hself hentered) hself ?_
      simp only [Abi.measureDecl, he]
      refine .bind (.mapM (List.forall₂_iff_zip.mpr ⟨hlen, fun {member l} hp => ?_⟩)) .pure
      refine ih _ hp _ fun outer houter inner htype => ?_
      have hpart : i.Contains id inner := by
        refine ⟨d, hd, ?_⟩
        rw [he, Entity.parts, ← htype]
        exact List.mem_map.mpr ⟨member, (List.of_mem_zip hp).1, rfl⟩
      rcases List.mem_cons.mp houter with rfl | houter
      · exact .single hpart
      · exact (hentered outer houter id rfl).tail hpart
  | @enum id d variants hd he =>
      intro entered hentered
      have hself : i.LaidOut abi (.decl id) _ := .enum hd he
      refine answers_measure hd (hfresh hself hentered) hself ?_
      simp only [Abi.measureDecl, he]
      exact .pure

end Measuring

/-! ## Calculators -/

namespace Sizing

/-- What the calculator knows is right. -/
def Sound (z : Sizing) : Prop :=
  z.known.Sound z.interface z.abi

theorem sound_new (i : Interface) (abi : Abi) : Sound { interface := i, abi } := by
  intro id layout h
  cases h

theorem sound_layoutOf {z : Sizing} (hz : z.Sound) (id : Ident) : (z.layoutOf id).2.Sound :=
  (finds_measure z.interface z.abi [] id z.known hz).1

/-- A calculator answers a layout exactly if it is the layout of the declaration. -/
theorem layoutOf_eq_ok_iff {z : Sizing} (hz : z.Sound) {id : Ident} {layout : Layout} :
    (z.layoutOf id).1 = .ok layout ↔ z.interface.LaidOut z.abi (.decl id) layout := by
  constructor
  · exact (finds_measure z.interface z.abi [] id z.known hz).2 layout
  · intro h
    obtain ⟨known', hy, -⟩ := answers_measureRef h [] (by simp) z.known hz
    exact congrArg Prod.fst hy

end Sizing

/-- The layout of a declaration, from a calculator that has not been asked anything. Where there
is none, an empty one stands in. -/
def Interface.layoutOf (i : Interface) (abi : Abi) (id : Ident) : Layout :=
  match (Sizing.layoutOf { interface := i, abi } id).1 with
  | .ok layout => layout
  | .error _ => { size := 0, align := 1 }

theorem Interface.layoutOf_eq_empty {id : Ident} (h : ∀ layout, ¬ i.LaidOut abi (.decl id) layout) :
    i.layoutOf abi id = { size := 0, align := 1 } := by
  unfold Interface.layoutOf
  split
  · rename_i layout hok
    exact (h layout ((Sizing.layoutOf_eq_ok_iff (Sizing.sound_new i abi)).mp hok)).elim
  · rfl

theorem Interface.LaidOut.layoutOf_eq {id : Ident} {layout : Layout}
    (h : i.LaidOut abi (.decl id) layout) : i.layoutOf abi id = layout := by
  have hok := (Sizing.layoutOf_eq_ok_iff (Sizing.sound_new i abi)).mpr h
  rw [Interface.layoutOf, hok]

end HostDecl
