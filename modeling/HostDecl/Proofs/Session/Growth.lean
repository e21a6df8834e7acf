import HostDecl.Proofs.Session.Coupling

/-!
# Sessions only grow

A request can fail at any of its steps, and what it did before stays done. Whatever it is, and
whether it succeeds or fails, it only adds to the page and to the registry (`Backend.grown_step`),
and it defines nothing but declarations that it is about. So a sequence of requests, however many of
them fail, never takes back or changes what has been written or defined (`Backend.GrowsOnly`).

All of this is shown from the steps that backends are made of: a property of sessions that each of
these steps keeps holds after any request to a uniform backend (`Session.Lasting.step`).
-/

namespace HostDecl

variable {V S : Type}

/-! ## Pages -/

namespace Page

theorem text_prefix_writeLine (p : Page) (w : Writer) (line : String) :
    p.text.toList <+: (p.writeLine w line).text.toList := by
  rw [writeLine, String.toList_append]
  exact List.prefix_append ..

theorem text_prefix_print (p : Page) (lines : List Line) :
    p.text.toList <+: (p.print lines).text.toList := by
  induction lines generalizing p with
  | nil => exact List.prefix_rfl
  | cons line lines ih => exact (p.text_prefix_writeLine _ _).trans (ih _)

theorem text_prefix_endBlock (p : Page) (w : Writer) :
    p.text.toList <+: (p.endBlock w).text.toList := by
  unfold endBlock
  split
  · exact List.prefix_rfl
  · exact p.text_prefix_writeLine w ""

end Page

/-! ## What every step keeps -/

namespace Session

/-- A property of sessions that is kept by every step that a backend is made of, where only admitted
declarations are defined. -/
structure Lasting (P : Session V S → Prop) (admitted : Decl → Prop) : Prop where
  print : ∀ s lines, P s → P (s.print lines)
  rest : ∀ s, P s → P s.rest
  register : ∀ s d value, admitted d → d.id ∉ s.defined.idents → P s →
    P (s.register (s.defined.extend d.id value d.name))
  keep : ∀ s z, P s → P (s.keep z)
  report : ∀ s reporter reported, P s → P { s with reporter, reported }
  hold : ∀ s own, P s → P (s.hold own)

namespace Lasting

variable {P : Session V S → Prop} {admitted : Decl → Prop} {b : Backend V S}

theorem noted (h : Lasting P admitted) {s : Session V S} (hs : P s) (table : AtomTable)
    (type : TypeRef) (location : Location) : P (s.noted table type location) :=
  noted_rename (I := fun s _ => P s) id hs rfl (fun _ _ _ => h.report _ _ _ hs) table type location

theorem inStep_askSizing (h : Lasting P admitted) (abi : Abi) (i : Interface)
    (query : Sizing → Except Fault Layout × Sizing) :
    InStep (fun s s' => s' = s ∧ P s) Eq (fun layout layout' => layout' = layout)
      (Emission.askSizing abi i query : Emission V S Layout) (Emission.askSizing abi i query) := by
  refine .askSizing ?_
  rintro _ s ⟨rfl, hs⟩
  rcases query (Emission.sizingOf abi i s) with ⟨fault | layout, z⟩
  · exact .error rfl ⟨rfl, h.keep _ _ hs⟩
  · exact .ok rfl ⟨rfl, h.keep _ _ hs⟩

theorem inStep_line (h : Lasting P admitted) (text : String) (depth : Nat) :
    InStep (fun s s' => s' = s ∧ P s) Eq (fun _ _ => True)
      (Emission.line text depth : Emission V S Unit) (Emission.line text depth) := by
  rintro _ s ⟨rfl, hs⟩
  rw [outcome_line]
  exact .ok trivial ⟨rfl, h.print _ _ hs⟩

theorem inStep_endBlock (h : Lasting P admitted) :
    InStep (fun s s' => s' = s ∧ P s) Eq (fun _ _ => True)
      (Emission.endBlock : Emission V S Unit) Emission.endBlock := by
  rintro _ s ⟨rfl, hs⟩
  exact .ok trivial ⟨rfl, h.rest _ hs⟩

theorem inStep_define (h : Lasting P admitted) (valueText : V → String) (value : V) {d : Decl}
    (hd : admitted d) : InStep (fun s s' => s' = s ∧ P s) Eq (fun _ _ => True)
      (Emission.define valueText d value : Emission V S Unit)
      (Emission.define valueText d value) := by
  rintro _ s ⟨rfl, hs⟩
  rw [outcome_define]
  cases hget : s.defined.get? d.id with
  | none =>
      have hid := (Registry.get?_eq_none_iff _ _).mp hget
      exact .ok trivial ⟨rfl, h.register _ _ _ hd hid hs⟩
  | some existing => exact .error rfl ⟨rfl, hs⟩

/-- Such a property is an invariant of all that a uniform backend does. -/
theorem coupling (h : Lasting P admitted) (b : Backend V S) (i : Interface) :
    Coupling b (fun x => x) i (fun s s' => s' = s ∧ P s) Eq (fun _ => True) admitted where
  fault _ := rfl
  line := h.inStep_line
  endBlock := h.inStep_endBlock
  header d _ _ := by
    rw [Interface.rename_id, Decl.rename_id]
    exact .bind h.inStep_endBlock fun _ _ _ => h.inStep_line _ 0
  define d value hd := by
    rw [Decl.rename_id]
    exact h.inStep_define b.valueText value hd
  resolve type := by
    rw [Interface.rename_id, TypeRef.rename_id]
    rintro _ s ⟨rfl, hs⟩
    rw [outcome_resolve]
    rcases s.defined.resolve b.atomType type with (id | _) | value
    · exact .error rfl ⟨rfl, hs⟩
    · exact .error rfl ⟨rfl, hs⟩
    · exact .ok ⟨rfl, trivial⟩ ⟨rfl, hs⟩
  layoutOf id := by
    rw [Interface.rename_id]
    exact h.inStep_askSizing b.abi i _
  checkWidening type location := by
    rw [TypeRef.rename_id]
    rintro _ s ⟨rfl, hs⟩
    rw [outcome_checkWidening]
    exact .ok trivial ⟨rfl, h.noted hs ..⟩
  warn w location := by
    rintro _ s ⟨rfl, hs⟩
    exact .ok trivial ⟨rfl, h.report _ _ _ hs⟩
  own := by
    rintro _ s ⟨rfl, -⟩
    rfl
  hold := by
    rintro _ s own ⟨rfl, hs⟩
    exact ⟨rfl, h.hold _ _ hs⟩

/-- The property holds after a request if it held before. -/
theorem step (h : Lasting P admitted) (hb : b.Uniform) {request : Request}
    (hdecls : ∀ d ∈ request.decls, admitted d) {s : Session V S} (hs : P s) :
    P (b.step s request).2 := by
  have hstep : Matched _ _ _ (b.step s request) (b.step s request) :=
    inStep_perform_of (h.coupling b) hb (fun i type => h.inStep_askSizing b.abi i _)
      (fun _ _ hI => congrArg Session.defined hI.1) hdecls s s ⟨rfl, hs⟩
  generalize b.step s request = p at hstep
  cases hstep with
  | ok _ hI => exact hI.2
  | error _ hI => exact hI.2

/-- So it holds after a sequence of requests. -/
theorem after (h : Lasting P admitted) (hb : b.Uniform) {requests : List Request}
    (hdecls : ∀ request ∈ requests, ∀ d ∈ request.decls, admitted d) {s : Session V S} (hs : P s) :
    P (b.after s requests) := by
  induction requests generalizing s with
  | nil => exact hs
  | cons request requests ih =>
      obtain ⟨hrequest, hrequests⟩ := List.forall_mem_cons.mp hdecls
      exact ih hrequests (h.step hb hrequest hs)

end Lasting

/-! ## What comes in addition -/

/-- The second session has all of the first, in front. What it has defined in addition is new, and
of the given idents. -/
structure Grown (ids : List Ident) (s t : Session V S) : Prop where
  written : s.page.text.toList <+: t.page.text.toList
  defined : ∃ new : List (Ident × V), t.defined.entries = s.defined.entries ++ new ∧
    (new.map Prod.fst).Nodup ∧ ∀ id ∈ new.map Prod.fst, id ∈ ids ∧ id ∉ s.defined.idents

theorem Grown.refl (ids : List Ident) (s : Session V S) : s.Grown ids s :=
  ⟨List.prefix_rfl, [], by simp⟩

/-- Whatever a session does, it only grows. -/
theorem lasting_grown (ids : List Ident) (s : Session V S) :
    Lasting (s.Grown ids) (fun d => d.id ∈ ids) where
  print t lines h := ⟨h.written.trans (t.page.text_prefix_print lines), h.defined⟩
  rest t h := ⟨h.written.trans (t.page.text_prefix_endBlock {}), h.defined⟩
  register t d value hd hfresh h := by
    obtain ⟨new, hentries, hnodup, hnew⟩ := h.defined
    have hidents : t.defined.idents = s.defined.idents ++ new.map Prod.fst := by
      rw [Registry.idents, hentries, List.map_append, Registry.idents]
    rw [hidents, List.mem_append, not_or] at hfresh
    refine ⟨h.written, new ++ [(d.id, value)], ?_, ?_, ?_⟩
    · simp [Registry.extend, hentries]
    · rw [List.map_append, List.nodup_append']
      exact ⟨hnodup, List.nodup_singleton _, by simpa using hfresh.2⟩
    · rw [List.map_append, List.forall_mem_append]
      exact ⟨hnew, List.forall_mem_singleton.mpr ⟨hd, hfresh.1⟩⟩
  keep t z h := ⟨h.written, h.defined⟩
  report t reporter reported h := ⟨h.written, h.defined⟩
  hold t own h := ⟨h.written, h.defined⟩

theorem Grown.idents {ids : List Ident} {s t : Session V S} (h : s.Grown ids t) :
    ∃ new : List Ident, t.defined.idents = s.defined.idents ++ new ∧ new.Nodup ∧
      ∀ id ∈ new, id ∈ ids ∧ id ∉ s.defined.idents := by
  obtain ⟨new, hentries, hnodup, hnew⟩ := h.defined
  exact ⟨new.map Prod.fst, by simp [Registry.idents, hentries], hnodup, hnew⟩

/-- What an ident resolves to stays as it is. -/
theorem Grown.get?_eq {ids : List Ident} {s t : Session V S} (h : s.Grown ids t) {id : Ident}
    {value : V} (hid : s.defined.get? id = some value) : t.defined.get? id = some value := by
  obtain ⟨new, hentries, -⟩ := h.defined
  rw [Registry.get?] at hid
  rw [Registry.get?, hentries, List.lookup_append, hid]
  rfl

end Session

/-! ## The rest of a run -/

/-- The declarations of a run that are still to come only add to the session, and so does what
closes it. -/
theorem Backend.grown_rest {b : Backend V S} (hb : b.Uniform) {i : Interface} {functions : Bool}
    {todo : List Decl} {s t : Session V S} {u : Unit}
    (h : Yields (do todo.forM (b.emitEntry i functions); b.closing i) s u t) :
    s.Grown (todo.map Decl.id) t := by
  have c := (s.lasting_grown (todo.map Decl.id)).coupling b i
  have hentry : ∀ d ∈ todo, InStep (fun r r' => r' = r ∧ s.Grown (todo.map Decl.id) r) Eq
      (fun _ _ => True) (b.emitEntry i functions d) (b.emitEntry i functions d) := by
    intro d hd
    have hstep := c.emitEntry hb (d := d) (List.mem_map_of_mem hd) functions
    rw [Interface.rename_id, Decl.rename_id] at hstep
    exact hstep.mono fun _ _ _ => trivial
  have hclosing := hb.closing c
  rw [Interface.rename_id] at hclosing
  have hrest := InStep.bind (.forM_same todo hentry) (fun _ _ _ => hclosing) s s
    ⟨rfl, .refl _ s⟩
  rw [show outcome _ s = _ from h] at hrest
  cases hrest with
  | ok _ hI => exact hI.2

/-! ## Requests -/

/-- The idents of the declarations that a request may define. -/
def Request.subjects (request : Request) : List Ident :=
  request.decls.map Decl.id

/-- The idents that a sequence of requests defines, in the order in which it does. -/
def Backend.definitions (b : Backend V S) (s : Session V S) : List Request → List Ident
  | [] => []
  | request :: requests =>
    let next := (b.step s request).2
    (next.defined.idents.filter fun id => id ∉ s.defined.idents) ++ b.definitions next requests

/-- Whatever is asked for and whatever fails, a session of the backend only grows. -/
structure Backend.GrowsOnly (b : Backend V S) : Prop where
  grown : ∀ (s : Session V S) requests,
    s.Grown (requests.flatMap Request.subjects) (b.after s requests)
  resolved : ∀ (s : Session V S) requests i id value, s.defined.get? id = some value →
    Yields (Emission.resolve b.atomType i (.decl id)) (b.after s requests) value
      (b.after s requests)
  distinct : ∀ reporter requests, (b.after (b.newSession reporter) requests).defined.idents.Nodup
  inOrder : ∀ reporter requests, (b.after (b.newSession reporter) requests).defined.idents =
    b.definitions (b.newSession reporter) requests

namespace Backend

variable {b : Backend V S}

/-- A request only adds to a session, and defines nothing but its own declarations. -/
theorem grown_step (hb : b.Uniform) (s : Session V S) (request : Request) :
    s.Grown request.subjects (b.step s request).2 :=
  (s.lasting_grown _).step hb (fun _ hd => List.mem_map_of_mem hd) (.refl _ s)

/-- A sequence of requests only adds to a session, whichever of them fail. -/
theorem grown_after (hb : b.Uniform) (s : Session V S) (requests : List Request) :
    s.Grown (requests.flatMap Request.subjects) (b.after s requests) :=
  (s.lasting_grown _).after hb (fun request hrequest _ hd =>
    List.mem_flatMap.mpr ⟨request, hrequest, List.mem_map_of_mem hd⟩) (.refl _ s)

/-- The idents of a session after a sequence of requests are those that it had, and behind them
those that the requests define. -/
theorem idents_after (hb : b.Uniform) (s : Session V S) (requests : List Request) :
    (b.after s requests).defined.idents = s.defined.idents ++ b.definitions s requests := by
  induction requests generalizing s with
  | nil => simp [after, definitions]
  | cons request requests ih =>
      obtain ⟨new, hidents, -, hnew⟩ := (grown_step hb s request).idents
      have hfilter : (b.step s request).2.defined.idents.filter (fun id => id ∉ s.defined.idents) =
          new := by
        rw [hidents, List.filter_append, List.filter_eq_nil_iff.mpr (by simp),
          List.filter_eq_self.mpr fun id hid => by simpa using (hnew id hid).2, List.nil_append]
      rw [after, List.foldl_cons, ← after, ih, definitions, hfilter, hidents, List.append_assoc]

/-- Uniform backends grow only. -/
theorem growsOnly (hb : b.Uniform) : b.GrowsOnly where
  grown := grown_after hb
  resolved s requests i id value hid := by
    rw [Yields, outcome_resolve, Registry.resolve, (grown_after hb s requests).get?_eq hid]
  distinct reporter requests := by
    obtain ⟨new, hidents, hnodup, -⟩ := (grown_after hb (b.newSession reporter) requests).idents
    rw [hidents]
    exact hnodup
  inOrder reporter requests := idents_after hb (b.newSession reporter) requests

end Backend

end HostDecl
