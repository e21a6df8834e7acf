import HostDecl.Proofs.Cli.Stages
import HostDecl.Proofs.Generate.Loaded
import HostDecl.Proofs.Generate.NameClashes

/-!
# Where names that meet break a run off

A backend for IR fails with errors of its own, or for names that meet: the names of declarations are
kept apart by the loader as they are declared, but the variants of an enum are not, and names that
are declared apart can be converted to the same one. The faults of names that meet have no message,
and a run of the command line tells only of faults that have one. So it breaks off there, and
otherwise only where something that it reads or is asked for has no message either
(`llvm_fails_with_messages_unless_names_meet`).
-/

namespace HostDecl

theorem Run.coherent_of_loadInterface {disk : Disk} {path : Path} {i : Interface}
    (h : Run.loadInterface disk path = .ok i) : i.Coherent := by
  have hreads : Reads (Run.loadInterface disk path) _ _ :=
    .bind .self fun bytes _ => .bind .self fun text _ => Run.reads_orFault
  obtain ⟨bytes, -, text, -, htext⟩ := (hreads.ok_iff i).mp h
  exact Interface.coherent_of_ofText htext

/-- A fault of a coherent interface has a message, unless it is one of names that meet in IR. -/
theorem generate_fails {i : Interface} {backend : String} {config : Config} {skipUnsupported : Bool}
    {reporter : Reporter} {f : Fault} (hi : i.Coherent)
    (h : (generate i backend config skipUnsupported reporter).1 = .error f) :
    f.family? ≠ none ∨ Host.find backend = .ok .llvm ∧ i.NamesMeet f := by
  have hforeseen : f.Foreseen → f.family? ≠ none := by
    rintro (_ | _ | _) <;> simp [Fault.family?]
  cases hfind : Host.find backend with
  | error fault =>
      rw [generate, hfind] at h
      unfold Host.find at hfind
      split at hfind
      · cases hfind
      · cases hfind
        cases h
        exact .inl (by simp [Fault.family?])
  | ok host =>
      rw [generate_of_find hfind] at h
      cases host with
      | rust =>
          exact .inl (hforeseen (Backend.generate_failsOnly (Rust.describes config)
            (Rust.careful config) hi skipUnsupported reporter h))
      | c =>
          exact .inl (hforeseen (Backend.generate_failsOnly (C.describes config)
            (C.careful config) hi skipUnsupported reporter h))
      | llvm =>
          rcases Llvm.generate_failsOnly hi h with ⟨name, id, rfl⟩ | ⟨name, id, rfl⟩ | hmeet
          · exact .inl (by simp [Fault.family?])
          · exact .inl (by simp [Fault.family?])
          · exact .inr ⟨rfl, hmeet⟩

/-- What is loaded is generated for IR, or it fails with one of the two internal errors for
declarations in the wrong order and for types that contain themselves, or else two of its names meet
or one is empty, and the fault is about these names. A run of the command line breaks off only
there, or where what it reads has no message for its fault, or where no file can have the path of
the output. -/
theorem llvm_fails_with_messages_unless_names_meet (path defaultName text : String)
    (i : Interface) (config : Config) (skipUnsupported : Bool) (reporter : Reporter)
    (versions : Versions) (disk : Disk) (args : List String)
    (hload : Interface.ofText path defaultName text = .ok i) :
    (∀ f, (Host.llvm.generate config i skipUnsupported reporter).1 = .error f →
      f.family? = some .internal ∧ (f.code? = some "CE0002" ∨ f.code? = some "CE0006") ∨
        i.NamesMeet f) ∧
    ∀ f, run versions disk args = .broken f →
      ∃ o name, Options.ofArgs args = .ok o ∧ Settings.nonEmpty? o.module = some name ∧
        (Run.loadJob versions.host disk o (.ofText name) = .error (.fault f) ∧ f.family? = none ∨
        (∃ job, Run.loadJob versions.host disk o (.ofText name) = .ok job ∧
          Host.find job.backend = .ok .llvm ∧ job.interface.NamesMeet f) ∨
        f = .noSuchPath ∧
          ∃ out, o.out.nonEmpty? = some out ∧ (Path.ofText out).isPossible = false) := by
  constructor
  · intro f hf
    rcases Llvm.generate_failsOnly (Interface.coherent_of_ofText hload) hf with
      ⟨name, id, rfl⟩ | ⟨name, id, rfl⟩ | hmeet
    · exact .inl ⟨rfl, .inl rfl⟩
    · exact .inl ⟨rfl, .inr rfl⟩
    · exact .inr hmeet
  · intro f hbroken
    obtain ⟨o, name, hargs, hname, hrun⟩ := run_eq_broken hbroken
    refine ⟨o, name, hargs, hname, ?_⟩
    cases hproduce : (Run.produce versions.host disk o (.ofText name)).1 with
    | ok text =>
        rw [Run.onInterface_of_ok hproduce] at hrun
        exact .inr (.inr (Run.finish_eq_broken hrun))
    | error failure =>
        rw [Run.onInterface_of_error hproduce] at hrun
        obtain ⟨rfl, hfamily⟩ := Run.fail_eq_broken_iff.mp hrun
        rw [Run.produce_fst] at hproduce
        cases hjob : Run.loadJob versions.host disk o (.ofText name) with
        | error failure =>
            rw [hjob] at hproduce
            cases hproduce
            exact .inl ⟨rfl, hfamily⟩
        | ok job =>
            rw [hjob] at hproduce
            obtain ⟨fault, hgenerate, hfault⟩ := (Run.reads_orFault.error_iff _).mp hproduce
            cases hfault
            obtain ⟨settings, hloads⟩ := Run.loadJob_eq_ok_iff.mp hjob
            have hi := Run.coherent_of_loadInterface hloads.interface
            exact .inr (.inl ⟨job, rfl, (generate_fails hi hgenerate).resolve_left (· hfamily)⟩)

/-- An enum with two variants of one name. -/
def Interface.twins : Interface where
  name := "m"
  decls := [{ id := ⟨0⟩, name := "e", entity := .enum ["a", "a"] }]

/-- The text that describes it. -/
def Interface.twinsText : String :=
  "declaration = [\x7b kind = 'enum', name = 'e', variants = ['a', 'a'] \x7d]"

/-- The loader takes two variants of one name. A run for IR breaks off at the second of them. -/
theorem llvm_breaks_off_at_twins :
    Interface.ofText "m.toml" "m" Interface.twinsText = .ok .twins ∧
    (Host.llvm.generate .linux .twins false { filename := "m.toml" }).1 =
      .error (.nameTaken "E.A") ∧
    Interface.twins.NamesMeet (.nameTaken "E.A") ∧
    run { host := "x86_64-unknown-linux-gnu" } (.sole "m.toml" Interface.twinsText)
      ["-b", "llvm", "m.toml"] = .broken (.nameTaken "E.A") ∧
    ∃ job, Run.loadJob "x86_64-unknown-linux-gnu" (.sole "m.toml" Interface.twinsText)
        { module := some "m.toml", backend := .text "llvm" } (.ofText "m.toml") = .ok job ∧
      Host.find job.backend = .ok .llvm ∧ job.interface.NamesMeet (.nameTaken "E.A") := by
  have htext : Interface.ofText "m.toml" "m" Interface.twinsText = .ok .twins := by
    decide +kernel
  obtain ⟨hgenerate, hbroken⟩ := llvm_fails_with_messages_unless_names_meet "m.toml" "m"
    Interface.twinsText .twins .linux false { filename := "m.toml" }
    { host := "x86_64-unknown-linux-gnu" } (.sole "m.toml" Interface.twinsText)
    ["-b", "llvm", "m.toml"] htext
  have hfails : (Host.llvm.generate .linux .twins false { filename := "m.toml" }).1 =
      .error (.nameTaken "E.A") := by decide +kernel
  refine ⟨htext, hfails, (hgenerate _ hfails).resolve_left (by simp [Fault.family?]), ?_⟩
  have hargs : Options.ofArgs ["-b", "llvm", "m.toml"] =
      .ok { module := some "m.toml", backend := .text "llvm" } := by decide +kernel
  have hloads : Run.Loads "x86_64-unknown-linux-gnu" (.sole "m.toml" Interface.twinsText)
      { module := some "m.toml", backend := .text "llvm" } (.ofText "m.toml")
      { config := .linux } { backend := "llvm", config := .linux, interface := .twins } :=
    Run.loads_sole (by decide +kernel) (by decide +kernel) rfl (by decide +kernel) rfl rfl htext
  have hraises : Run.Raises "x86_64-unknown-linux-gnu" (.sole "m.toml" Interface.twinsText)
      { module := some "m.toml", backend := .text "llvm" } (.ofText "m.toml")
      (.fault (.nameTaken "E.A")) := by
    refine .generate hloads ?_
    rw [generate_of_find (show Host.find "llvm" = .ok .llvm by decide +kernel)]
    exact hfails
  have hrun : run { host := "x86_64-unknown-linux-gnu" } (.sole "m.toml" Interface.twinsText)
      ["-b", "llvm", "m.toml"] = .broken (.nameTaken "E.A") := by
    rw [run_eq_onInterface hargs rfl rfl rfl,
      Run.onInterface_of_error ((Run.reads_produce.error_iff _).mpr hraises)]
    exact Run.fail_eq_broken_iff.mpr ⟨rfl, rfl⟩
  refine ⟨hrun, ?_⟩
  obtain ⟨o, name, ho, hname, hcause⟩ := hbroken _ hrun
  obtain rfl := Except.ok.inj (hargs.symm.trans ho)
  obtain rfl := Option.some.inj hname
  rcases hcause with ⟨hfault, -⟩ | hjob | ⟨hpath, -⟩
  · rw [Run.loadJob_eq_ok_iff.mpr ⟨_, hloads⟩] at hfault
    cases hfault
  · exact hjob
  · cases hpath

end HostDecl
