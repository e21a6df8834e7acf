import HostDecl.Proofs.Layout.Calculator
import HostDecl.Proofs.Writer.Lines
import HostDecl.Session.Backend

/-!
# What the steps of a session yield

One lemma for each primitive step: when it succeeds, and which session it leaves. Printing and
defining are functions on sessions (`Session.print`, `Registry.extend`), with their effect on each
part of a session beside them, so that a longer emission comes to a chain of such functions.

Layouts are asked of the calculator that the session keeps. As long as that calculator is right
(`Session.Trusted`) the answer is the layout of the declaration, whatever was asked before
(`yields_layoutOf`).
-/

namespace HostDecl

variable {V S : Type}

/-! ## Lines -/

namespace Session

/-- The session after several lines. -/
def print (s : Session V S) (lines : List Line) : Session V S :=
  { s with page := s.page.print lines }

/-- The session at a break. -/
def rest (s : Session V S) : Session V S :=
  { s with page := s.page.endBlock {} }

/-- The session with another registry. -/
def register (s : Session V S) (defined : Registry V) : Session V S :=
  { s with defined }

/-- The session with something else kept for its backend. -/
def hold (s : Session V S) (own : S) : Session V S :=
  { s with own }

@[simp] theorem print_page (s : Session V S) (lines : List Line) :
    (s.print lines).page = s.page.print lines := rfl

@[simp] theorem print_defined (s : Session V S) (lines : List Line) :
    (s.print lines).defined = s.defined := rfl

@[simp] theorem print_own (s : Session V S) (lines : List Line) :
    (s.print lines).own = s.own := rfl

@[simp] theorem print_sizing (s : Session V S) (lines : List Line) :
    (s.print lines).sizing = s.sizing := rfl

@[simp] theorem print_nil (s : Session V S) : s.print [] = s := rfl

theorem print_print (s : Session V S) (lines lines' : List Line) :
    (s.print lines).print lines' = s.print (lines ++ lines') := by
  simp [print, Page.print_append]

@[simp] theorem rest_page (s : Session V S) : s.rest.page = s.page.endBlock {} := rfl

@[simp] theorem rest_defined (s : Session V S) : s.rest.defined = s.defined := rfl

@[simp] theorem rest_own (s : Session V S) : s.rest.own = s.own := rfl

@[simp] theorem rest_sizing (s : Session V S) : s.rest.sizing = s.sizing := rfl

@[simp] theorem register_page (s : Session V S) (r : Registry V) :
    (s.register r).page = s.page := rfl

@[simp] theorem register_defined (s : Session V S) (r : Registry V) :
    (s.register r).defined = r := rfl

@[simp] theorem register_own (s : Session V S) (r : Registry V) :
    (s.register r).own = s.own := rfl

@[simp] theorem register_sizing (s : Session V S) (r : Registry V) :
    (s.register r).sizing = s.sizing := rfl

@[simp] theorem hold_page (s : Session V S) (own : S) : (s.hold own).page = s.page := rfl

@[simp] theorem hold_defined (s : Session V S) (own : S) :
    (s.hold own).defined = s.defined := rfl

@[simp] theorem hold_own (s : Session V S) (own : S) : (s.hold own).own = own := rfl

@[simp] theorem hold_sizing (s : Session V S) (own : S) : (s.hold own).sizing = s.sizing := rfl

end Session

open Emission

theorem yields_line {text : String} {depth : Nat} {u : Unit} {s t : Session V S} :
    Yields (line text depth) s u t ↔ t = s.print [{ text, depth }] :=
  yields_modify

theorem yields_endBlock {u : Unit} {s t : Session V S} :
    Yields endBlock s u t ↔ t = s.rest :=
  yields_modify

/-- A loop of lines, where each turn can be refused for what the session has defined so far. -/
theorem yields_forM_print {α : Type} {f : α → Emission V S Unit} {r : Registry V}
    {ok : α → Prop} {text : α → Line}
    (h : ∀ x (s t : Session V S), s.defined = r →
      (Yields (f x) s () t ↔ ok x ∧ t = s.print [text x]))
    (xs : List α) {u : Unit} {s t : Session V S} (hs : s.defined = r) :
    Yields (xs.forM f) s u t ↔ (∀ x ∈ xs, ok x) ∧ t = s.print (xs.map text) := by
  induction xs generalizing s with
  | nil =>
      rw [yields_forM_nil]
      simp
  | cons x xs ih =>
      rw [yields_forM_cons]
      constructor
      · rintro ⟨u, hx, hxs⟩
        obtain ⟨hok, rfl⟩ := (h x s u hs).mp hx
        obtain ⟨hall, rfl⟩ := (ih (by simpa using hs)).mp hxs
        refine ⟨List.forall_mem_cons.mpr ⟨hok, hall⟩, ?_⟩
        rw [Session.print_print, List.map_cons, List.singleton_append]
      · rintro ⟨hall, rfl⟩
        obtain ⟨hok, hall⟩ := List.forall_mem_cons.mp hall
        refine ⟨_, (h x s _ hs).mpr ⟨hok, rfl⟩, ?_⟩
        refine (ih (by simpa using hs)).mpr ⟨hall, ?_⟩
        rw [Session.print_print, List.map_cons, List.singleton_append]

/-- A loop of lines. -/
theorem yields_forM_lines {α : Type} {f : α → Emission V S Unit} {text : α → Line}
    (h : ∀ x (s t : Session V S), Yields (f x) s () t ↔ t = s.print [text x]) (xs : List α)
    {u : Unit} {s t : Session V S} :
    Yields (xs.forM f) s u t ↔ t = s.print (xs.map text) := by
  have hprint : Yields (xs.forM f) s u t ↔ (∀ x ∈ xs, True) ∧ t = s.print (xs.map text) :=
    yields_forM_print (fun x s t _ => by simpa using h x s t) xs rfl
  simpa using hprint

/-! ## Definitions -/

namespace Registry

variable {α : Type}

/-- The registry with one more entry. -/
def extend (r : Registry α) (id : Ident) (value : α) (name : String) : Registry α where
  entries := r.entries ++ [(id, value)]
  names := r.names ++ [(id, name)]

@[simp] theorem idents_extend (r : Registry α) (id : Ident) (value : α) (name : String) :
    (r.extend id value name).idents = r.idents ++ [id] := by
  simp [extend, idents]

theorem get?_extend (r : Registry α) (id id' : Ident) (value : α) (name : String) :
    (r.extend id value name).get? id' =
      (r.get? id').or (if id' = id then some value else none) := by
  simp only [extend, get?, List.lookup_append, List.lookup_cons, List.lookup_nil]
  by_cases h : id' = id
  · simp [h]
  · simp [h, beq_eq_false_iff_ne.mpr h]

theorem get?_isSome_iff (r : Registry α) (id : Ident) :
    (r.get? id).isSome = true ↔ id ∈ r.idents := by
  simp only [get?, idents, List.lookup_isSome_iff, List.mem_map, beq_iff_eq]
  exact ⟨fun ⟨e, he, hid⟩ => ⟨e, he, hid.symm⟩, fun ⟨e, he, hid⟩ => ⟨e, he, hid.symm⟩⟩

theorem get?_eq_none_iff (r : Registry α) (id : Ident) :
    r.get? id = none ↔ id ∉ r.idents := by
  rw [← get?_isSome_iff, Bool.not_eq_true, Option.isSome_eq_false_iff, Option.isNone_iff_eq_none]

/-- The registry can resolve the reference. -/
def Knows (r : Registry α) : TypeRef → Prop
  | .atom _ => True
  | .decl id => id ∈ r.idents
  | .foreign _ => False

theorem knows_extend {r : Registry α} {type : TypeRef} {id : Ident} {value : α} {name : String} :
    (r.extend id value name).Knows type ↔ r.Knows type ∨ type = .decl id := by
  cases type with
  | atom a => simp [Knows]
  | decl id' => simp [Knows]
  | foreign text => simp [Knows]

/-- What a reference resolves to. For a reference that the registry does not know, a truth value
stands in. -/
def reading (r : Registry α) (atomType : Atom → α) (type : TypeRef) : α :=
  match r.resolve atomType type with
  | .ok value => value
  | .error _ => atomType .bool

theorem resolve_eq_ok_iff {r : Registry α} {atomType : Atom → α} {type : TypeRef} {value : α} :
    r.resolve atomType type = .ok value ↔ r.Knows type ∧ value = r.reading atomType type := by
  cases type with
  | atom a => simp [resolve, Knows, reading, eq_comm]
  | decl id =>
      rw [Knows, ← get?_isSome_iff]
      cases h : r.get? id <;> simp [resolve, reading, h, eq_comm]
  | foreign text => simp [resolve, Knows]

theorem reading_extend {r : Registry α} {atomType : Atom → α} {type : TypeRef}
    (h : r.Knows type) (id : Ident) (value : α) (name : String) :
    (r.extend id value name).reading atomType type = r.reading atomType type := by
  cases type with
  | atom a => rfl
  | decl id' =>
      obtain ⟨v, hv⟩ := Option.isSome_iff_exists.mp ((r.get?_isSome_iff id').mpr h)
      simp [reading, resolve, get?_extend, hv]
  | foreign text => exact h.elim

end Registry

theorem yields_define {valueText : V → String} {d : Decl} {value : V} {u : Unit}
    {s t : Session V S} : Yields (define valueText d value) s u t ↔
      d.id ∉ s.defined.idents ∧ t = s.register (s.defined.extend d.id value d.name) := by
  rw [← Registry.get?_eq_none_iff]
  unfold define
  simp only [yields_bind, yields_get, Registry.define]
  cases h : s.defined.get? d.id with
  | none =>
      constructor
      · rintro ⟨_, _, ⟨rfl, rfl⟩, hy⟩
        rw [h] at hy
        exact ⟨rfl, yields_modify.mp hy⟩
      · rintro ⟨-, rfl⟩
        refine ⟨s, s, ⟨rfl, rfl⟩, ?_⟩
        rw [h]
        exact yields_modify.mpr rfl
  | some existing =>
      constructor
      · rintro ⟨_, _, ⟨rfl, rfl⟩, hy⟩
        rw [h] at hy
        exact (yields_throw.mp hy).elim
      · rintro ⟨h', -⟩
        cases h'

theorem yields_resolve {atomType : Atom → V} {i : Interface} {type : TypeRef} {value : V}
    {s t : Session V S} : Yields (resolve atomType i type) s value t ↔
      s.defined.Knows type ∧ value = s.defined.reading atomType type ∧ t = s := by
  rw [← and_assoc, ← Registry.resolve_eq_ok_iff]
  unfold resolve
  simp only [yields_bind, yields_get]
  constructor
  · rintro ⟨_, _, ⟨rfl, rfl⟩, hy⟩
    split at hy
    · rename_i h
      obtain ⟨rfl, rfl⟩ := yields_pure.mp hy
      exact ⟨h, rfl⟩
    · exact (yields_throw.mp hy).elim
    · exact (yields_throw.mp hy).elim
  · rintro ⟨h, rfl⟩
    refine ⟨_, _, ⟨rfl, rfl⟩, ?_⟩
    rw [h]
    exact yields_pure.mpr ⟨rfl, rfl⟩

/-! ## Layouts -/

namespace Session

/-- If the session keeps a calculator for the interface, it is one for the given ABI and right. -/
def Trusted (abi : Abi) (i : Interface) (s : Session V S) : Prop :=
  ∀ z, s.sizing = some z → z.interface = i → z.abi = abi ∧ z.Sound

/-- The session after a question about a layout. -/
def measured (s : Session V S) (abi : Abi) (i : Interface) (id : Ident) : Session V S :=
  { s with sizing := some ((sizingOf abi i s).layoutOf id).2 }

@[simp] theorem measured_page (s : Session V S) (abi : Abi) (i : Interface) (id : Ident) :
    (s.measured abi i id).page = s.page := rfl

@[simp] theorem measured_defined (s : Session V S) (abi : Abi) (i : Interface) (id : Ident) :
    (s.measured abi i id).defined = s.defined := rfl

@[simp] theorem measured_own (s : Session V S) (abi : Abi) (i : Interface) (id : Ident) :
    (s.measured abi i id).own = s.own := rfl

variable {abi : Abi} {i : Interface} {s : Session V S}

theorem Trusted.of_sizing_eq {t : Session V S} (h : s.Trusted abi i)
    (heq : t.sizing = s.sizing) : t.Trusted abi i := by
  rw [Trusted, heq]
  exact h

theorem Trusted.print (h : s.Trusted abi i) (lines : List Line) :
    (s.print lines).Trusted abi i :=
  h

theorem Trusted.hold (h : s.Trusted abi i) (own : S) : (s.hold own).Trusted abi i :=
  h

theorem Trusted.register (h : s.Trusted abi i) (r : Registry V) : (s.register r).Trusted abi i :=
  h

/-- The calculator that a trusted session uses is one for the interface, and right. -/
theorem Trusted.sizingOf (h : s.Trusted abi i) :
    (sizingOf abi i s).interface = i ∧ (sizingOf abi i s).abi = abi ∧
      (sizingOf abi i s).Sound := by
  have hnew : Sizing.Sound { interface := i, abi } := Sizing.sound_new i abi
  unfold Emission.sizingOf
  cases hz : s.sizing with
  | none => exact ⟨rfl, rfl, hnew⟩
  | some z =>
      dsimp only
      split
      · rename_i hi
        exact ⟨hi, h z hz hi⟩
      · exact ⟨rfl, rfl, hnew⟩

theorem Trusted.measured (h : s.Trusted abi i) (id : Ident) :
    (s.measured abi i id).Trusted abi i := by
  intro z hz _
  obtain rfl := Option.some.inj hz
  obtain ⟨-, habi, hsound⟩ := h.sizingOf
  exact ⟨habi, Sizing.sound_layoutOf hsound id⟩

end Session

theorem yields_layoutOf {abi : Abi} {i : Interface} {id : Ident} {layout : Layout}
    {s t : Session V S} (h : s.Trusted abi i) :
    Yields (layoutOf abi i id) s layout t ↔
      i.LaidOut abi (.decl id) layout ∧ t = s.measured abi i id := by
  obtain ⟨hi, habi, hsound⟩ := h.sizingOf
  have hiff : ((sizingOf abi i s).layoutOf id).1 = .ok layout ↔ _ :=
    Sizing.layoutOf_eq_ok_iff hsound
  rw [hi, habi] at hiff
  rw [← hiff]
  unfold layoutOf askSizing
  simp only [yields_bind, yields_get, yields_modify]
  constructor
  · rintro ⟨_, _, ⟨rfl, rfl⟩, _, _, rfl, hy⟩
    split at hy
    · rename_i l hl
      obtain ⟨rfl, rfl⟩ := yields_pure.mp hy
      exact ⟨hl, rfl⟩
    · exact (yields_throw.mp hy).elim
  · rintro ⟨hl, rfl⟩
    refine ⟨_, _, ⟨rfl, rfl⟩, (), _, rfl, ?_⟩
    rw [hl]
    exact yields_pure.mpr ⟨rfl, rfl⟩

/-! ## Warnings -/

/-- The sessions differ at most in what has been reported. -/
structure Session.Alike (s t : Session V S) : Prop where
  page : t.page = s.page
  defined : t.defined = s.defined
  sizing : t.sizing = s.sizing
  own : t.own = s.own

theorem Session.Alike.refl (s : Session V S) : s.Alike s :=
  ⟨rfl, rfl, rfl, rfl⟩

theorem Session.Alike.trans {s t u : Session V S} (h : s.Alike t) (h' : t.Alike u) : s.Alike u :=
  ⟨h'.page.trans h.page, h'.defined.trans h.defined, h'.sizing.trans h.sizing, h'.own.trans h.own⟩

theorem Session.Alike.print {s t : Session V S} (h : s.Alike t) (lines : List Line) :
    (s.print lines).Alike (t.print lines) :=
  ⟨congrArg (·.print lines) h.page, h.defined, h.sizing, h.own⟩

theorem Session.Alike.rest {s t : Session V S} (h : s.Alike t) : s.rest.Alike t.rest :=
  ⟨congrArg (·.endBlock {}) h.page, h.defined, h.sizing, h.own⟩

theorem Session.Alike.register {s t : Session V S} (h : s.Alike t) (r : Registry V) :
    (s.register r).Alike (t.register r) :=
  ⟨h.page, rfl, h.sizing, h.own⟩

theorem yields_warn {w : Warning} {location : Location} {u : Unit} {s t : Session V S} :
    Yields (warn w location) s u t ↔ t = { s with reporter := s.reporter.warn w location } :=
  yields_modify

/-- Looking at a reference for widening never fails and changes nothing but the reports. -/
theorem yields_checkWidening (table : AtomTable) (type : TypeRef) (location : Location)
    (s : Session V S) :
    ∃ t, Yields (checkWidening table type location) s () t ∧ s.Alike t := by
  cases type with
  | atom a =>
      simp only [checkWidening, yields_bind, yields_get]
      by_cases h : (table.widens a && !s.reported.contains a) = true
      · let w := Warning.widened a (table.token a) table.host
        refine ⟨{ s with reported := a :: s.reported, reporter := s.reporter.warn w location },
          ⟨s, s, ⟨rfl, rfl⟩, ?_⟩, ⟨rfl, rfl, rfl, rfl⟩⟩
        rw [if_pos h]
        exact yields_bind.mpr ⟨(), _, yields_modify.mpr rfl, yields_warn.mpr rfl⟩
      · refine ⟨s, ⟨s, s, ⟨rfl, rfl⟩, ?_⟩, .refl s⟩
        rw [if_neg h]
        exact yields_pure.mpr ⟨rfl, rfl⟩
  | decl id => exact ⟨s, yields_pure.mpr ⟨rfl, rfl⟩, .refl s⟩
  | foreign text => exact ⟨s, yields_pure.mpr ⟨rfl, rfl⟩, .refl s⟩

end HostDecl
