import HostDecl.Generate
import HostDecl.Proofs.Backend.Failures
import HostDecl.Proofs.Generate.Acceptance
import HostDecl.Proofs.Interface.Loader
import HostDecl.Proofs.Layout.Cache

/-!
# What is loaded can be worked with

The generators look at few things before they act on a declaration, and the calculator of layouts
looks at fewer. What the loader accepts is coherent, and that is enough: a backend for Rust or C
ends with a text or for one of three reasons, and a layout is missing only where a type contains
itself.
-/

namespace HostDecl

open Description

/-- What is loaded from a text is coherent. -/
theorem Interface.coherent_of_ofText {path defaultName text : String} {i : Interface}
    (h : Interface.ofText path defaultName text = .ok i) : i.Coherent := by
  unfold Interface.ofText at h
  split at h
  · rename_i t _
    exact (((reads_ofTable path defaultName t).ok_iff i).mp h).coherent
  · cases h
  · cases h

/-- The codes of the three reasons. -/
theorem Fault.Foreseen.code {f : Fault} (h : f.Foreseen) :
    f.code? = some "CE1001" ∨ f.code? = some "CE0002" ∨ f.code? = some "CE0006" := by
  cases h
  · exact .inr (.inl rfl)
  · exact .inr (.inr rfl)
  · exact .inl rfl

theorem Backend.generate_failsOnly {V S : Type} {sh : Sheet V S} {b : Backend V S} {i : Interface}
    (hsh : sh.Describes b) (hb : b.Careful) (hi : i.Coherent) (skipUnsupported : Bool)
    (reporter : Reporter) {f : Fault} (hf : (b.generate i skipUnsupported reporter).1 = .error f) :
    f.Foreseen := by
  rw [Backend.generate_eq] at hf
  split at hf
  · cases hf
  · rename_i fault t hrun
    cases hf
    exact hsh.failsOnly_run hb hi reporter _ _ hrun

/-- Of what is loaded, the Rust and the C backend make a text, unless a declaration stands in front
of one that it uses, a type contains itself, or functions are not supported. Whatever has been asked
before, a type of it has a layout unless it comes to a type that contains itself. -/
theorem loaded_fails_only_as_foreseen (path defaultName text : String) (i : Interface)
    (h : Interface.ofText path defaultName text = .ok i) :
    (∀ (host : Host) (config : Config) (skipUnsupported : Bool) (reporter : Reporter),
      host = .rust ∨ host = .c →
      (∃ output, (host.generate config i skipUnsupported reporter).1 = .ok output) ∨
      ∃ f, (host.generate config i skipUnsupported reporter).1 = .error f ∧
        (f.code? = some "CE1001" ∨ f.code? = some "CE0002" ∨ f.code? = some "CE0006")) ∧
    ∀ (abi : Abi) (queries : List Sizing.Query), ∀ d ∈ i.decls, d.entity.isType = true →
      (∀ f, ((Sizing.asked { interface := i, abi } queries).layoutOf d.id).1 = .error f →
        f.code? = some "CE0006") ∧
      ((∃ f, ((Sizing.asked { interface := i, abi } queries).layoutOf d.id).1 = .error f) ↔
        i.MeetsCycle d.id) := by
  have hi := Interface.coherent_of_ofText h
  constructor
  · intro host config skipUnsupported reporter hhost
    cases hresult : (host.generate config i skipUnsupported reporter).1 with
    | ok output => exact .inl ⟨output, rfl⟩
    | error f =>
        refine .inr ⟨f, rfl, Fault.Foreseen.code ?_⟩
        rcases hhost with rfl | rfl
        · exact Backend.generate_failsOnly (Rust.describes config) (Rust.careful config) hi
            skipUnsupported reporter hresult
        · exact Backend.generate_failsOnly (C.describes config) (C.careful config) hi
            skipUnsupported reporter hresult
  · intro abi queries d hd htype
    obtain ⟨hz, -, hsound⟩ := (Sizing.Serves.new i abi).asked queries
    obtain ⟨hfault, hcycle⟩ := Sizing.layoutOf_error hi hsound hz ⟨d, hd, rfl, htype⟩
    refine ⟨fun f hf => ?_, hcycle⟩
    obtain ⟨name, c, rfl⟩ := hfault f hf
    rfl

/-- An alias that stands for itself. -/
def Interface.knot : Interface where
  name := "m"
  decls := [{ id := ⟨0⟩, name := "a", entity := .aliasOf (.decl ⟨0⟩) }]

theorem loaded_fails_only_as_foreseen_knot :
    Interface.ofText "m" "m" "declaration = [\x7b kind = 'alias', name = 'a', to = 'a' \x7d]" =
      .ok .knot ∧
    (∃ f, (Host.c.generate .linux .knot false {}).1 = .error f ∧
      (f.code? = some "CE1001" ∨ f.code? = some "CE0002" ∨ f.code? = some "CE0006")) ∧
    ∃ f, (Sizing.layoutOf { interface := .knot, abi := Host.c.abi .linux } ⟨0⟩).1 = .error f ∧
      f.code? = some "CE0006" := by
  have htext : Interface.ofText "m" "m"
      "declaration = [\x7b kind = 'alias', name = 'a', to = 'a' \x7d]" = .ok .knot := by
    decide +kernel
  have hrefused : ¬ ∃ output, (Host.c.generate .linux .knot false {}).1 = .ok output := by
    intro houtput
    have haccepted : Interface.knot.Accepted .c false :=
      ((C.describes .linux).outcomes (by decide) emittable_c_iff).1.mp houtput
    exact absurd haccepted (by decide)
  have hcycle : Interface.knot.MeetsCycle ⟨0⟩ :=
    ⟨⟨0⟩, .refl, .single ⟨_, rfl, List.mem_singleton_self _⟩⟩
  obtain ⟨hgenerate, hlayout⟩ := loaded_fails_only_as_foreseen "m" "m" _ .knot htext
  refine ⟨htext, (hgenerate .c .linux false {} (.inr rfl)).resolve_left hrefused, ?_⟩
  obtain ⟨hcode, hfails⟩ := hlayout (Host.c.abi .linux) [] _ (List.mem_singleton_self _) rfl
  obtain ⟨f, hf⟩ := hfails.mpr hcycle
  exact ⟨f, hf, hcode f hf⟩

end HostDecl
