import HostDecl.Proofs.Layout.Sites
import HostDecl.Proofs.Session.Outcomes
import HostDecl.Proofs.Session.Run

/-!
# What a session reports

A session warns of functions that are skipped and of atoms that are widened, and of each atom once.
`Session.notes` is what it has reported, and all that a report depends on. Looking at a reference is
then a function on notes (`Notes.look`), and what an emission reports is told by the sites that it
looks at: `Emission.Looks table e sites`. The rules follow the steps of an emission, and the sites
of a whole run are those of its interface (`Backend.notes_run`).
-/

namespace HostDecl

variable {V S : Type}

/-! ## Diagnostics of warnings -/

/-- The diagnostic that a warning becomes. -/
def Warning.diagnostic (w : Warning) (filename : String) (location : Location) : Diagnostic where
  kind := .warning
  code := w.message.code
  message := w.wording
  location := some location
  filename := some filename

namespace Reporter

@[simp] theorem items_warn (r : Reporter) (w : Warning) (location : Location) :
    (r.warn w location).items = r.items ++ [w.diagnostic r.filename location] := rfl

@[simp] theorem filename_warn (r : Reporter) (w : Warning) (location : Location) :
    (r.warn w location).filename = r.filename := rfl

end Reporter

/-! ## Notes -/

/-- What a session has reported: the diagnostics, and the atoms that it has warned of. -/
structure Notes where
  reporter : Reporter
  reported : List Atom

def Session.notes (s : Session V S) : Notes where
  reporter := s.reporter
  reported := s.reported

namespace Notes

variable {table : AtomTable} {wide : Atom}

/-- The notes with a warning. -/
def warn (n : Notes) (w : Warning) (location : Location) : Notes :=
  { n with reporter := n.reporter.warn w location }

/-- The notes after a look at a reference: a warning if it is to a widened atom that has not been
warned of. -/
def look (table : AtomTable) (n : Notes) (site : Site) : Notes :=
  match site.type with
  | .atom a =>
    if table.widens a && !n.reported.contains a then
      { n.warn (.widened a (table.token a) table.host) site.location with
        reported := a :: n.reported }
    else n
  | _ => n

/-- Several warnings add their diagnostics in order. -/
theorem foldl_warn {α : Type} (warning : α → Warning) (location : α → Location) (xs : List α)
    (n : Notes) : xs.foldl (fun n x => n.warn (warning x) (location x)) n =
      { n with reporter := { n.reporter with
          items := n.reporter.items ++ xs.map fun x =>
            (warning x).diagnostic n.reporter.filename (location x) } } := by
  induction xs generalizing n with
  | nil => simp
  | cons x xs ih =>
      rw [List.foldl_cons, ih]
      simp [warn]

/-- A reference to anything but a widened atom is passed over. -/
theorem look_of_ne (h : ∀ a, table.widens a = true ↔ a = wide) {site : Site}
    (hsite : site.type ≠ .atom wide) (n : Notes) : look table n site = n := by
  unfold look
  cases ht : site.type with
  | atom a =>
      have ha : table.widens a = false := by
        rw [← Bool.not_eq_true, h]
        rintro rfl
        exact hsite ht
      simp [ha]
  | decl id => rfl
  | foreign text => rfl

/-- An atom that has been warned of is not warned of again. -/
theorem foldl_look_of_mem (h : ∀ a, table.widens a = true ↔ a = wide) (sites : List Site)
    {n : Notes} (hn : wide ∈ n.reported) : sites.foldl (look table) n = n := by
  induction sites with
  | nil => rfl
  | cons site sites ih =>
      have hlook : look table n site = n := by
        by_cases hsite : site.type = .atom wide
        · simp [look, hsite, hn]
        · exact look_of_ne h hsite n
      rw [List.foldl_cons, hlook, ih]

/-- If a host widens a single atom, what comes of looking at several references is a warning at the
first of them that is to this atom, if there is one. -/
theorem items_foldl_look (h : ∀ a, table.widens a = true ↔ a = wide) (sites : List Site)
    {n : Notes} (hn : n.reported = []) :
    (sites.foldl (look table) n).reporter.items = n.reporter.items ++
      ((sites.find? fun site => site.type = .atom wide).map fun site =>
        (Warning.widened wide (table.token wide) table.host).diagnostic n.reporter.filename
          site.location).toList := by
  induction sites with
  | nil => simp
  | cons site sites ih =>
      rw [List.foldl_cons]
      by_cases hsite : site.type = .atom wide
      · have hwide : table.widens wide = true := (h wide).mpr rfl
        rw [foldl_look_of_mem h sites (by simp [look, hsite, hwide, hn])]
        simp [look, hsite, hwide, hn, warn]
      · rw [look_of_ne h hsite, ih]
        simp [hsite]

end Notes

/-! ## What emissions look at -/

/-- When the emission succeeds, it has reported what looks at the sites report, and nothing else. -/
def Emission.Looks {α : Type} (table : AtomTable) (e : Emission V S α) (sites : List Site) : Prop :=
  ∀ s a t, Yields e s a t → t.notes = sites.foldl (Notes.look table) s.notes

namespace Emission.Looks

variable {α β : Type} {table : AtomTable} {sites sites' : List Site}

theorem pure {a : α} : Looks table (pure a : Emission V S α) [] := by
  intro s b t h
  obtain ⟨-, rfl⟩ := yields_pure.mp h
  rfl

/-- What fails has not reported anything that counts. -/
theorem throw {fault : Fault} : Looks table (throw fault : Emission V S α) sites :=
  fun _ _ _ h => (yields_throw.mp h).elim

theorem bind {e : Emission V S α} {f : α → Emission V S β} (he : Looks table e sites)
    (hf : ∀ a, Looks table (f a) sites') : Looks table (e >>= f) (sites ++ sites') := by
  intro s b t h
  obtain ⟨a, u, ha, hb⟩ := yields_bind.mp h
  rw [hf a u b t hb, he s a u ha, List.foldl_append]

/-- An emission after another one that looks at nothing. -/
theorem andThen {e : Emission V S α} {f : α → Emission V S β} (he : Looks table e [])
    (hf : ∀ a, Looks table (f a) sites) : Looks table (e >>= f) sites :=
  he.bind hf

/-- An emission in front of another one that looks at nothing. -/
theorem followedBy {e : Emission V S α} {f : α → Emission V S β} (he : Looks table e sites)
    (hf : ∀ a, Looks table (f a) []) : Looks table (e >>= f) sites := by
  simpa using he.bind hf

theorem forM {α : Type} {f : α → Emission V S Unit} {g : α → List Site} (xs : List α)
    (h : ∀ x ∈ xs, Looks table (f x) (g x)) : Looks table (xs.forM f) (xs.flatMap g) := by
  induction xs with
  | nil => exact .pure
  | cons x xs ih =>
      obtain ⟨hx, hxs⟩ := List.forall_mem_cons.mp h
      exact hx.bind fun _ => ih hxs

/-- A loop where each turn looks at one site. -/
theorem forM_each {α : Type} {f : α → Emission V S Unit} {g : α → Site} (xs : List α)
    (h : ∀ x ∈ xs, Looks table (f x) [g x]) : Looks table (xs.forM f) (xs.map g) := by
  rw [List.map_eq_flatMap]
  exact forM xs h

/-- A loop where no turn looks at anything. -/
theorem forM_nothing {α : Type} {f : α → Emission V S Unit} (xs : List α)
    (h : ∀ x ∈ xs, Looks table (f x) []) : Looks table (xs.forM f) [] := by
  have hnil : xs.flatMap (fun _ => ([] : List Site)) = [] :=
    List.flatMap_eq_nil_iff.mpr fun _ _ => rfl
  rw [← hnil]
  exact forM xs h

/-- A list of emissions none of which looks at anything. -/
theorem mapM_nothing {f : α → Emission V S β} (xs : List α)
    (h : ∀ x ∈ xs, Looks table (f x) []) : Looks table (xs.mapM f) [] := by
  induction xs with
  | nil => exact .pure
  | cons x xs ih =>
      obtain ⟨hx, hxs⟩ := List.forall_mem_cons.mp h
      rw [List.mapM_cons]
      exact hx.andThen fun _ => (ih hxs).andThen fun _ => .pure

/-! ### Primitive steps -/

theorem line {text : String} {depth : Nat} :
    Looks table (Emission.line text depth : Emission V S Unit) [] := by
  intro s u t h
  rw [yields_line.mp h]
  rfl

theorem endBlock : Looks table (Emission.endBlock : Emission V S Unit) [] := by
  intro s u t h
  rw [yields_endBlock.mp h]
  rfl

theorem define {valueText : V → String} {d : Decl} {value : V} :
    Looks table (Emission.define valueText d value : Emission V S Unit) [] := by
  intro s u t h
  rw [(yields_define.mp h).2]
  rfl

theorem resolve {atomType : Atom → V} {i : Interface} {type : TypeRef} :
    Looks table (Emission.resolve atomType i type : Emission V S V) [] := by
  intro s v t h
  rw [(yields_resolve.mp h).2.2]
  rfl

theorem layoutOf {abi : Abi} {i : Interface} {id : Ident} :
    Looks table (Emission.layoutOf abi i id : Emission V S Layout) [] := by
  intro s l t h
  rw [Yields, Emission.layoutOf, outcome_askSizing] at h
  obtain ⟨-, rfl⟩ := Prod.mk.inj h
  rfl

theorem checkWidening {type : TypeRef} {location : Location} :
    Looks table (Emission.checkWidening table type location : Emission V S Unit)
      [{ type, location }] := by
  intro s u t h
  rw [Yields, outcome_checkWidening] at h
  obtain ⟨-, rfl⟩ := Prod.mk.inj h
  cases type with
  | atom a =>
      simp only [Session.noted, List.foldl_cons, List.foldl_nil, Notes.look]
      split
      · rename_i hw
        exact (if_pos hw).symm
      · rename_i hw
        exact (if_neg hw).symm
  | decl id => rfl
  | foreign text => rfl

theorem block {opener closer : String} {inside : Emission V S Unit}
    (h : Looks table inside sites) : Looks table (Emission.block opener closer inside) sites :=
  line.andThen fun _ => h.followedBy fun _ => line

end Emission.Looks

/-! ## Runs -/

namespace Backend

variable {b : Backend V S} {i : Interface} {skipUnsupported : Bool} {s t : Session V S}

/-- A host without functions warns once of each. -/
theorem notes_admitFunctions {functions : Bool} (hb : b.host.emitsFunctions = false)
    (h : Yields (b.admitFunctions i skipUnsupported) s functions t) :
    t.notes = i.functions.foldl (fun n d =>
      n.warn (.functionSkipped d.name b.host.name) { declaration := d.name }) s.notes := by
  unfold admitFunctions at h
  cases hf : i.functions with
  | nil =>
      rw [hf] at h
      obtain ⟨-, rfl⟩ := yields_pure.mp h
      rfl
  | cons first rest =>
      rw [hf] at h
      simp only [hb, Bool.false_eq_true, if_false] at h
      split at h
      · obtain ⟨_, u, hu, hpure⟩ := yields_bind.mp h
        obtain ⟨-, rfl⟩ := yields_pure.mp hpure
        refine hu.forM_inv (P := fun done t => t.notes = done.foldl _ s.notes) ?_ rfl
        intro done d _ r r' _ hr hy
        rw [yields_warn.mp hy, List.foldl_append, ← hr]
        rfl
      · exact (yields_throw.mp h).elim

/-- A host with functions has no reason to warn of them. -/
theorem notes_admitFunctions_of_emitsFunctions {functions : Bool}
    (hb : b.host.emitsFunctions = true)
    (h : Yields (b.admitFunctions i skipUnsupported) s functions t) : t.notes = s.notes := by
  unfold admitFunctions at h
  simp only [hb, if_true] at h
  split at h
  all_goals
    obtain ⟨-, rfl⟩ := yields_pure.mp h
    rfl

/-- A declaration is looked at by the operation for its kind, if there is one. -/
theorem looks_emitDecl {table : AtomTable} {d : Decl} {sites : List Site}
    (aliasOf : ∀ target, d.entity = .aliasOf target →
      Emission.Looks table (b.aliasOf i d target) sites)
    (struct : ∀ members, d.entity = .struct members →
      Emission.Looks table (b.struct i d members) sites)
    (enum : ∀ variants, d.entity = .enum variants →
      Emission.Looks table (b.enum i d variants) sites)
    (function : ∀ args result, d.entity = .function args result →
      Emission.Looks table (b.function i d args result) sites) :
    Emission.Looks table (b.emitDecl i d) sites := by
  cases he : d.entity with
  | aliasOf target =>
      rw [emitDecl_alias he]
      exact aliasOf target he
  | struct members =>
      rw [emitDecl_struct he]
      exact struct members he
  | enum variants =>
      by_cases hne : variants = []
      · subst hne
        simp only [emitDecl, emitEnum, he]
        exact .throw
      · rw [emitDecl_enum he hne]
        exact enum variants he
  | function args result =>
      simp only [emitDecl, emitFunction, he]
      split
      · exact function args result he
      · exact .throw
  | foreign text =>
      simp only [emitDecl, he]
      exact .throw

/-- Once it is known what comes of the functions, a run looks at what its declarations look at, if
functions are not looked at and nor is anything else. -/
theorem looks_rest {table : AtomTable} {sites : Decl → List Site}
    (hpreamble : Emission.Looks table (b.preamble i) [])
    (hdecl : ∀ d ∈ i.decls, Emission.Looks table (b.emitDecl i d) (sites d))
    (hfunction : ∀ d ∈ i.decls, d.entity.isFunction = true → sites d = [])
    (hclosing : Emission.Looks table (b.closing i) []) (functions : Bool) :
    Emission.Looks table (do b.preamble i; i.decls.forM (b.emitEntry i functions); b.closing i)
      (i.decls.flatMap sites) := by
  have hentry : ∀ d ∈ i.decls, Emission.Looks table (b.emitEntry i functions d) (sites d) := by
    intro d hd
    unfold emitEntry
    split
    · rename_i hf
      split
      · exact hdecl d hd
      · rw [hfunction d hd hf]
        exact .pure
    · exact (Emission.Looks.endBlock.andThen fun _ => .line).andThen fun _ => hdecl d hd
  exact hpreamble.andThen fun _ =>
    (Emission.Looks.forM i.decls hentry).followedBy fun _ => hclosing

/-- A run of a host without functions warns of them, in order, and then of what it sees at the sites
of the interface, if each declaration looks at its own sites and nothing else does. -/
theorem notes_run {table : AtomTable} {discriminant : Atom} (hb : b.host.emitsFunctions = false)
    (hpreamble : Emission.Looks table (b.preamble i) [])
    (hdecl : ∀ d ∈ i.decls, Emission.Looks table (b.emitDecl i d) (d.sites discriminant))
    (hclosing : Emission.Looks table (b.closing i) [])
    (h : Yields (b.run i skipUnsupported) s () t) :
    t.notes = (i.sites discriminant).foldl (Notes.look table) (i.functions.foldl (fun n d =>
      n.warn (.functionSkipped d.name b.host.name) { declaration := d.name }) s.notes) := by
  obtain ⟨functions, r, hfun, hrest⟩ := yields_bind.mp h
  have hlooks := looks_rest hpreamble hdecl (fun _ _ => Decl.sites_of_isFunction) hclosing functions
  rw [hlooks r () t hrest, notes_admitFunctions hb hfun]
  rfl

/-- A run of a host with functions reports nothing, if nothing is looked at. -/
theorem notes_run_of_emitsFunctions {table : AtomTable} (hb : b.host.emitsFunctions = true)
    (hpreamble : Emission.Looks table (b.preamble i) [])
    (hdecl : ∀ d ∈ i.decls, Emission.Looks table (b.emitDecl i d) [])
    (hclosing : Emission.Looks table (b.closing i) [])
    (h : Yields (b.run i skipUnsupported) s () t) : t.notes = s.notes := by
  obtain ⟨functions, r, hfun, hrest⟩ := yields_bind.mp h
  have hlooks := looks_rest hpreamble hdecl (fun _ _ _ => rfl) hclosing functions
  have hnil : i.decls.flatMap (fun _ => ([] : List Site)) = [] :=
    List.flatMap_eq_nil_iff.mpr fun _ _ => rfl
  rw [hlooks r () t hrest, hnil, List.foldl_nil,
    notes_admitFunctions_of_emitsFunctions hb hfun]

end Backend

end HostDecl
