import HostDecl.Proofs.Generate.Pieces
import HostDecl.Proofs.Generate.Warnings

/-!
# Skipped functions

Rust has no functions, and a run can be told to skip them. They stay where they are while the types
are emitted: they can be looked up, they carry idents, and the calculator of layouts meets them.
None of this shows. The run comes to what the run for the interface without its functions comes to,
with one more warning for each function in front (`skipping_as_if_undeclared`).

The reason is that no type that is emitted can refer to a function, as functions are never defined;
so which types can be emitted is the same question in both interfaces, and their pieces are the
same.
-/

namespace HostDecl

namespace Interface

variable {i : Interface} {refs : Entity → List TypeRef} {discriminant : Atom}

/-- The interface without its functions. -/
def withoutFunctions (i : Interface) : Interface where
  name := i.name
  decls := i.decls.filter fun d => !d.entity.isFunction

theorem mem_withoutFunctions {d : Decl} :
    d ∈ i.withoutFunctions.decls ↔ d ∈ i.decls ∧ d.entity.isFunction = false := by
  simp [withoutFunctions]

theorem functions_withoutFunctions : i.withoutFunctions.functions = [] := by
  refine List.filter_eq_nil_iff.mpr fun d hd => ?_
  simp [(mem_withoutFunctions.mp hd).2]

theorem Distinct.withoutFunctions (hi : i.Distinct) : i.withoutFunctions.Distinct :=
  hi.sublist (List.filter_sublist.map Decl.id)

/-- Functions take no part in layouts. -/
theorem sites_withoutFunctions : i.withoutFunctions.sites discriminant = i.sites discriminant := by
  unfold sites withoutFunctions
  induction i.decls with
  | nil => rfl
  | cons d decls ih =>
      cases hf : d.entity.isFunction with
      | false => simp [hf, ih]
      | true => simp [hf, ih, Decl.sites_of_isFunction hf]

/-- Only types count as declared. -/
theorem declaredIn_filter {decls : List Decl} {type : TypeRef} :
    type.DeclaredIn (decls.filter fun d => !d.entity.isFunction) ↔ type.DeclaredIn decls := by
  cases type with
  | atom a => rfl
  | decl id =>
      refine ⟨fun h => h.mono fun d hd => (List.mem_filter.mp hd).1, ?_⟩
      rintro ⟨d, hd, hid, htype⟩
      refine ⟨d, List.mem_filter.mpr ⟨hd, ?_⟩, hid, htype⟩
      simp [Entity.isFunction_eq_false_of_isType htype]
  | foreign text => rfl

/-- Where nothing of a function is resolved, functions do not matter for what stands before what. -/
theorem orderedAfter_filter (hrefs : ∀ e : Entity, e.isFunction = true → refs e = [])
    (before decls : List Decl) :
    OrderedAfter refs (before.filter fun d => !d.entity.isFunction)
      (decls.filter fun d => !d.entity.isFunction) ↔ OrderedAfter refs before decls := by
  induction decls generalizing before with
  | nil => rfl
  | cons d decls ih =>
      have hnext := ih (before ++ [d])
      rw [List.filter_append] at hnext
      cases hf : d.entity.isFunction with
      | false =>
          simp only [List.filter_cons, hf, Bool.not_false, if_true, OrderedAfter, declaredIn_filter]
          simpa [hf] using fun _ => hnext
      | true =>
          simpa [hf, OrderedAfter, hrefs _ hf] using hnext

theorem ordered_withoutFunctions (hrefs : ∀ e : Entity, e.isFunction = true → refs e = []) :
    i.withoutFunctions.Ordered refs ↔ i.Ordered refs := by
  rw [ordered_iff, ordered_iff]
  exact orderedAfter_filter hrefs [] i.decls

/-- Rust accepts an interface with its functions skipped exactly if it accepts the interface without
them. -/
theorem accepted_withoutFunctions :
    i.withoutFunctions.Accepted .rust false ↔ i.Accepted .rust true := by
  have hordered : i.withoutFunctions.Ordered Host.rust.refs ↔ i.Ordered Host.rust.refs :=
    ordered_withoutFunctions fun _ => Entity.parts_eq_nil
  constructor
  · intro h
    refine ⟨fun d hd => ?_, hordered.mp h.ordered, fun d hd he => ?_, fun _ => .inr rfl, nofun,
      nofun⟩
    · cases hf : d.entity.isFunction with
      | true => exact .inr rfl
      | false =>
          have hd' := h.native d (mem_withoutFunctions.mpr ⟨hd, hf⟩)
          rwa [hf] at hd'
    · exact h.inhabited d (mem_withoutFunctions.mpr ⟨hd, by simp [he, Entity.isFunction]⟩) he
  · intro h
    exact ⟨fun d hd => h.native d (mem_withoutFunctions.mp hd).1, hordered.mpr h.ordered,
      fun d hd => h.inhabited d (mem_withoutFunctions.mp hd).1,
      fun _ => .inl functions_withoutFunctions, nofun, nofun⟩

end Interface

namespace Rust

variable {config : Config} {i : Interface} {reporter : Reporter} {text text' : String}

theorem filter_emits (i : Interface) :
    i.decls.filter (backend config).emits = i.withoutFunctions.decls :=
  rfl

/-- The two texts have the same pieces. -/
theorem text_withoutFunctions (hi : i.Distinct)
    (h : ((backend config).generate i true reporter).1 = .ok text)
    (h' : ((backend config).generate i.withoutFunctions false reporter).1 = .ok text') :
    text = text' := by
  obtain ⟨t, ht, rfl⟩ := Backend.generate_eq_ok_iff.mp h
  obtain ⟨t', ht', rfl⟩ := Backend.generate_eq_ok_iff.mp h'
  have hsh := describes config
  have hend := hsh.finished hi ht
  have hend' := hsh.finished hi.withoutFunctions ht'
  have hordered := ((hsh.run_succeeds_iff hi.withoutFunctions).mp ⟨t', ht'⟩).2.ordered
  have hemits' : i.withoutFunctions.decls.filter (backend config).emits =
      i.decls.filter (backend config).emits := by
    rw [filter_emits, filter_emits]
    exact List.filter_filter.trans (by simp [Interface.withoutFunctions])
  have hpieces : ∀ d ∈ i.decls.filter (backend config).emits,
      (sheet config).piece (backend config) i d (t.defined.reading (backend config).atomType) =
        (sheet config).piece (backend config) i.withoutFunctions d
          (t'.defined.reading (backend config).atomType) := by
    rw [← hemits']
    exact fun d hd => hend.piece_eq hsh hend' hi hi.withoutFunctions
      (fun d hd => (Interface.mem_withoutFunctions.mp hd).1) hordered hd
  rw [hend.text, hend'.text, hemits',
    List.map_congr_left fun d hd => congrArg blockText (hpieces d hd)]
  rfl

end Rust

/-- For Rust, an interface whose functions are skipped has a text exactly if the interface without
them has one. Then the texts are the same, and in front of the diagnostics of the second there is
one more for each function, in order. -/
theorem skipping_as_if_undeclared (config : Config) (i : Interface) (filename : String)
    (hi : i.Distinct) :
    (∀ text, (Host.rust.generate config i true { filename }).1 = .ok text ↔
      (Host.rust.generate config i.withoutFunctions false { filename }).1 = .ok text) ∧
    ∀ text, (Host.rust.generate config i true { filename }).1 = .ok text →
      (Host.rust.generate config i true { filename }).2.items =
        i.functions.map (Rust.skipped filename) ++
          (Host.rust.generate config i.withoutFunctions false { filename }).2.items := by
  have hsh := Rust.describes config
  have hsucceeds : (∃ text, (Host.rust.generate config i true { filename }).1 = .ok text) ↔
      ∃ text, (Host.rust.generate config i.withoutFunctions false { filename }).1 = .ok text :=
    ((hsh.outcomes hi emittable_rust_iff).1.trans Interface.accepted_withoutFunctions.symm).trans
      (hsh.outcomes hi.withoutFunctions emittable_rust_iff).1.symm
  have htexts : ∀ text, (Host.rust.generate config i true { filename }).1 = .ok text ↔
      (Host.rust.generate config i.withoutFunctions false { filename }).1 = .ok text := by
    intro text
    constructor
    · intro h
      obtain ⟨text', h'⟩ := hsucceeds.mp ⟨text, h⟩
      rwa [Rust.text_withoutFunctions hi h h']
    · intro h'
      obtain ⟨text', h⟩ := hsucceeds.mpr ⟨text, h'⟩
      rwa [← Rust.text_withoutFunctions hi h h']
  refine ⟨htexts, fun text h => ?_⟩
  have hitems := Rust.items_of_generate (i := i) (Prod.ext h rfl)
  have hitems' := Rust.items_of_generate (i := i.withoutFunctions)
    (Prod.ext ((htexts text).mp h) rfl)
  rw [Interface.functions_withoutFunctions, Rust.firstWidened,
    Interface.sites_withoutFunctions] at hitems'
  rw [hitems, hitems']
  rfl

theorem skipping_as_if_undeclared_shapes : Interface.shapes.Distinct ∧
    ∃ text, (Host.rust.generate .linux .shapes true {}).1 = .ok text ∧
      (Host.rust.generate .linux Interface.shapes.withoutFunctions false {}).1 = .ok text ∧
      (Host.rust.generate .linux .shapes true {}).2.items.map Diagnostic.code = "CW0002" ::
        (Host.rust.generate .linux Interface.shapes.withoutFunctions false {}).2.items.map
          Diagnostic.code := by
  have hi : Interface.shapes.Distinct := by decide
  obtain ⟨text, h⟩ := generates_of_accepted .rust .linux .shapes true {} hi (by decide +kernel)
  obtain ⟨htexts, hitems⟩ := skipping_as_if_undeclared .linux .shapes "<module>" hi
  refine ⟨hi, text, h, (htexts text).mp h, ?_⟩
  exact congrArg (List.map Diagnostic.code) (hitems text h)

end HostDecl
