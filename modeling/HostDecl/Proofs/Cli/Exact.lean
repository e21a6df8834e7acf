import HostDecl.Proofs.Backend.Silent
import HostDecl.Proofs.Cli.Stages
import HostDecl.Proofs.Generate.Warnings

/-!
# What a run writes, and how it ends

A run on an interface that fails before it has a text writes nothing at all. A run that has the text
writes all of it, unless the file or the stream that it is for refuses, and tells by the way it ends
whether there was anything to warn of, which only a run for Rust can have: functions that it
skipped, or the atom that it widens (`run_all_or_nothing`).
-/

namespace HostDecl

/-! ## Options above settings -/

/-- The settings under options that replace the target or the representation of enums: what an
option gives counts, and what it does not give stays as it is. -/
structure Run.Overridden (o : Options) (config config' : Config) : Prop where
  target : ∀ triple, o.target = .text triple → Target.ofTriple triple = .ok config'.target
  keptTarget : o.target = .missing → config'.target = config.target
  enumRepr : ∀ text, o.enumRepr = .text text →
    ∃ a, readEnumRepr text = .ok a ∧ config'.enumRepr = some a
  keptEnumRepr : o.enumRepr = .missing → config'.enumRepr = config.enumRepr

namespace Config

variable {config config' : Config}

theorem withTarget_eq_ok {triple : String} (h : config.withTarget (some triple) = .ok config') :
    Target.ofTriple triple = .ok config'.target ∧ config'.enumRepr = config.enumRepr := by
  have hreads : Reads (config.withTarget (some triple)) _ _ := .bind .self fun target _ => .ok
  obtain ⟨target, htarget, rfl⟩ := (hreads.ok_iff config').mp h
  exact ⟨htarget, rfl⟩

theorem withEnumRepr_eq_ok {text : String} (h : config.withEnumRepr (some text) = .ok config') :
    config'.target = config.target ∧
      ∃ a, readEnumRepr text = .ok a ∧ config'.enumRepr = some a := by
  have hreads : Reads (config.withEnumRepr (some text)) _ _ := .bind .self fun a _ => .ok
  obtain ⟨a, ha, rfl⟩ := (hreads.ok_iff config').mp h
  exact ⟨rfl, a, ha, rfl⟩

end Config

theorem OptionValue.notBlank_eq_ok {value : OptionValue} {given : Option String}
    (h : value.notBlank = .ok given) :
    value = .missing ∧ given = none ∨ ∃ text, value = .text text ∧ given = some text := by
  cases value with
  | missing =>
      cases h
      exact .inl ⟨rfl, rfl⟩
  | blank => cases h
  | text content =>
      cases h
      exact .inr ⟨content, rfl, rfl⟩

/-- The two options are put above the settings one after the other, and neither touches what the
other one gives. -/
theorem Run.overridden_of_override {o : Options} {config config' : Config}
    (h : Run.override config o = .ok config') : Run.Overridden o config config' := by
  have hreads : Reads (Run.override config o) _ _ :=
    .bind .self fun target _ => .bind .self fun c _ => .bind .self fun enumRepr _ => .self
  obtain ⟨target, htarget, c, hc, enumRepr, hrepr, hconfig⟩ := (hreads.ok_iff config').mp h
  have hfirst : (∀ triple, o.target = .text triple → Target.ofTriple triple = .ok c.target) ∧
      (o.target = .missing → c.target = config.target) ∧ c.enumRepr = config.enumRepr := by
    rcases OptionValue.notBlank_eq_ok htarget with ⟨hmissing, rfl⟩ | ⟨triple, htext, rfl⟩
    · cases hc
      exact ⟨by simp [hmissing], fun _ => rfl, rfl⟩
    · obtain ⟨hof, hkept⟩ := Config.withTarget_eq_ok hc
      refine ⟨fun given hgiven => ?_, by simp [htext], hkept⟩
      obtain rfl := OptionValue.text.inj (htext.symm.trans hgiven)
      exact hof
  obtain ⟨htriple, hkept, hother⟩ := hfirst
  rcases OptionValue.notBlank_eq_ok hrepr with ⟨hmissing, rfl⟩ | ⟨text, htext, rfl⟩
  · cases hconfig
    exact ⟨htriple, hkept, by simp [hmissing], fun _ => hother⟩
  · obtain ⟨hsame, a, ha, hset⟩ := Config.withEnumRepr_eq_ok hconfig
    refine ⟨by rwa [hsame], by rwa [hsame], fun given hgiven => ?_, by simp [htext]⟩
    obtain rfl := OptionValue.text.inj (htext.symm.trans hgiven)
    exact ⟨a, ha, hset⟩

/-! ## Warnings -/

namespace Host

variable {host : Host} {config : Config} {i : Interface} {skipUnsupported : Bool}
  {filename text : String} {reporter : Reporter}

theorem hasWarnings_rust
    (h : Host.rust.generate config i skipUnsupported { filename } = (.ok text, reporter)) :
    reporter.hasWarnings = true ↔
      i.functions ≠ [] ∨ i.Mentions config.discriminant.val .i8 := by
  have hitems := Rust.items_of_generate h
  have hkinds : ∀ x ∈ reporter.items, x.kind = .warning := by
    rw [hitems, List.forall_mem_append, List.forall_mem_map]
    refine ⟨fun d _ => rfl, fun x hx => ?_⟩
    obtain ⟨site, -, rfl⟩ := Option.map_eq_some_iff.mp (Option.mem_toList.mp hx)
    rfl
  have hwarned : reporter.hasWarnings = true ↔ reporter.items ≠ [] := by
    rw [Reporter.hasWarnings, decide_eq_true_iff, Reporter.count,
      List.countP_eq_length.mpr (by simpa using hkinds)]
    exact List.length_pos_iff
  rw [hwarned, ← Rust.isSome_firstWidened, hitems]
  cases Rust.firstWidened i config.discriminant.val <;> simp

/-- A session with a text has warned of something exactly if it is one for Rust and it has skipped
functions or widened an atom. -/
theorem hasWarnings_iff
    (h : host.generate config i skipUnsupported { filename } = (.ok text, reporter)) :
    reporter.hasWarnings = true ↔
      host = .rust ∧ (i.functions ≠ [] ∨ i.Mentions config.discriminant.val .i8) := by
  cases host with
  | rust => simpa using hasWarnings_rust h
  | c =>
      obtain ⟨t, ht, -, rfl⟩ := Backend.generate_eq_iff.mp h
      have hreporter : t.reporter = { filename } := congrArg Notes.reporter (C.notes_run ht)
      simp [hreporter, Reporter.hasWarnings, Reporter.count]
  | llvm =>
      obtain ⟨t, ht, -, rfl⟩ := Backend.generate_eq_iff.mp h
      have hreporter : t.reporter = { filename } := congrArg Notes.reporter (Llvm.notes_run ht)
      simp [hreporter, Reporter.hasWarnings, Reporter.count]

/-- A text is generated for the host with the name. -/
theorem exists_of_generate_eq_ok {backend : String}
    (h : (HostDecl.generate i backend config skipUnsupported reporter).1 = .ok text) :
    ∃ host, Host.find backend = .ok host ∧
      (host.generate config i skipUnsupported reporter).1 = .ok text := by
  cases hfind : Host.find backend with
  | error fault =>
      rw [HostDecl.generate, hfind] at h
      cases h
  | ok host =>
      rw [generate_of_find hfind] at h
      exact ⟨host, rfl, h⟩

end Host

/-! ## Runs -/

/-- A run of the command line that names a file, and asks neither for versions nor for the list of
hosts, writes everything or nothing, if it ends at all. If reading the settings, putting the options
above them, reading the interface or generating fails, it ends with the code 2 and writes nothing.
Otherwise there is the text of the interface that the file describes, for the host that the options
name or else the settings, under the settings with what the options replace. It is written to the
file that the options name or else to the stream. If this outlet refuses to take it, the code is 2,
and at most the beginning of the text is there. If not, the text and nothing else is written, and
the code is 1 if the host is Rust and there were functions to skip or the atom that Rust widens is
mentioned, and 0 if not. -/
theorem run_all_or_nothing (versions : Versions) (disk : Disk) (args : List String) (o : Options)
    (name : String) (outcome : Outcome) (hargs : Options.ofArgs args = .ok o)
    (hversion : o.version = false) (hlist : o.listBackends = false)
    (hname : Settings.nonEmpty? o.module = some name)
    (hrun : run versions disk args = .done outcome) :
    ((∃ failure, Run.Raises versions.host disk o (.ofText name) failure) →
      outcome.status.code = 2 ∧ outcome.WritesNothing) ∧
    ((¬ ∃ failure, Run.Raises versions.host disk o (.ofText name) failure) →
      ∃ settings config i host text,
        Run.loadSettings versions.host disk o.config.nonEmpty? = .ok settings ∧
        Run.Overridden o settings.config config ∧
        Run.loadInterface disk (.ofText name) = .ok i ∧
        Host.find (o.backend.nonEmpty?.getD settings.backend) = .ok host ∧
        (host.generate config i o.skipUnsupported { filename := (Path.ofText name).text }).1 =
          .ok text ∧
        ((∃ refusal, disk.refusal (Run.outlet o) = some refusal ∧
            outcome.status.code = 2 ∧ outcome.stdout = "" ∧ outcome.written = none ∧
            ∀ torn, outcome.torn = some torn →
              torn.outlet = Run.outlet o ∧ torn.bytes <+: text.toUTF8.data.toList) ∨
          disk.refusal (Run.outlet o) = none ∧
          outcome.stdout = (if o.out.nonEmpty?.isSome then "" else text) ∧
          outcome.written = o.out.nonEmpty?.map (fun out => (Path.ofText out, text)) ∧
          outcome.torn = none ∧
          outcome.status.code ≤ 1 ∧
          (outcome.status.code = 1 ↔ host = .rust ∧
            (i.functions ≠ [] ∨ i.Mentions config.discriminant.val .i8)))) := by
  rw [run_eq_onInterface hargs hversion hlist hname] at hrun
  constructor
  · rintro ⟨failure, hraises⟩
    rw [Run.onInterface_of_error ((Run.reads_produce.error_iff failure).mpr hraises)] at hrun
    obtain ⟨hstatus, hnothing⟩ := Run.fail_eq_done hrun
    exact ⟨by rw [hstatus]; rfl, hnothing⟩
  · intro hnone
    cases hproduce : (Run.produce versions.host disk o (.ofText name)).1 with
    | error failure =>
        have hraises := (Run.reads_produce.error_iff failure).mp hproduce
        exact (hnone ⟨failure, hraises⟩).elim
    | ok text =>
        obtain ⟨settings, job, hloads, hgenerate⟩ := (Run.reads_produce.ok_iff text).mp hproduce
        obtain ⟨host, hhost, hresult⟩ := Host.exists_of_generate_eq_ok hgenerate
        have hreporter : (Run.produce versions.host disk o (.ofText name)).2 =
            (host.generate job.config job.interface o.skipUnsupported
              { filename := (Path.ofText name).text }).2 := by
          rw [Run.produce, Run.loadJob_eq_ok_iff.mpr ⟨settings, hloads⟩]
          simp only [generate_of_find hhost]
        have hwarned := Host.hasWarnings_iff (Prod.ext hresult hreporter.symm)
        rw [hloads.backend] at hhost
        refine ⟨settings, job.config, job.interface, host, text, hloads.read,
          Run.overridden_of_override hloads.config, hloads.interface, hhost, hresult, ?_⟩
        rw [Run.onInterface_of_ok hproduce] at hrun
        rcases Run.finish_eq_done hrun with ⟨refusal, hrefusal, rfl⟩ | ⟨hrefusal, rfl⟩
        · exact .inl ⟨refusal, hrefusal, rfl, rfl, rfl, fun torn => OutletFault.prefix_of_torn⟩
        · obtain ⟨hstdout, hwritten, htorn⟩ := Run.succeed_outlet text o
            (Run.produce versions.host disk o (.ofText name)).2
          refine .inr ⟨hrefusal, hstdout, hwritten, htorn, ?_⟩
          rw [← hwarned, Run.status_succeed]
          cases (Run.produce versions.host disk o (.ofText name)).2.hasWarnings <;>
            simp [Status.code]

/-- An interface that declares one alias, of the atom that Rust widens. -/
def Interface.tiny : Interface where
  name := "m"
  decls := [{ id := ⟨0⟩, name := "a", entity := .aliasOf (.atom .i8) }]

/-- The disk with a file that describes it. -/
def Disk.tiny : Disk :=
  .sole "m.toml" "declaration = [\x7b kind = 'alias', name = 'a', to = 'i8' \x7d]"

namespace Run

variable {o : Options}

theorem loads_tiny (hbackend : o.backend = .missing) (htarget : o.target = .missing)
    (hrepr : o.enumRepr = .missing) (hconfig : o.config = .missing) :
    Loads "x86_64-unknown-linux-gnu" .tiny o (.ofText "m.toml") { config := .linux }
      { backend := "rust", config := .linux, interface := .tiny } := by
  have htext : Interface.ofText "m.toml" "m"
      "declaration = [\x7b kind = 'alias', name = 'a', to = 'i8' \x7d]" = .ok .tiny := by
      decide +kernel
  exact loads_sole (by decide +kernel) (by decide +kernel) (by rw [hconfig]; rfl)
    (by decide +kernel) (by rw [hbackend]; rfl) (by rw [override, htarget, hrepr]; rfl) htext

theorem generate_tiny (skipUnsupported : Bool) :
    (Host.rust.generate .linux .tiny skipUnsupported { filename := "m.toml" }).1 =
      .ok "/// a: alias i8\npub type A = i32;\n\n" := by
  cases skipUnsupported <;> decide +kernel

theorem produce_tiny (hbackend : o.backend = .missing) (htarget : o.target = .missing)
    (hrepr : o.enumRepr = .missing) (hconfig : o.config = .missing) :
    (produce "x86_64-unknown-linux-gnu" .tiny o (.ofText "m.toml")).1 =
      .ok "/// a: alias i8\npub type A = i32;\n\n" := by
  refine (reads_produce.ok_iff _).mpr ⟨_, _, loads_tiny hbackend htarget hrepr hconfig, ?_⟩
  rw [generate_of_find (show Host.find "rust" = .ok .rust by decide +kernel)]
  exact generate_tiny o.skipUnsupported

end Run

/-- The disk with a stream that takes seven bytes. -/
def Disk.full : Disk :=
  { Disk.tiny with refusal := fun _ => some { fault := .noSpace, taken := some 7 } }

/-- A run for Rust that widens an atom writes the text to its stream and ends with the code 1. If
the stream does not take it, the run ends with the code 2. -/
theorem run_all_or_nothing_tiny :
    (∃ outcome,
      run { host := "x86_64-unknown-linux-gnu" } .tiny ["m.toml"] = .done outcome ∧
      (¬ ∃ failure, Run.Raises "x86_64-unknown-linux-gnu" .tiny { module := some "m.toml" }
        (.ofText "m.toml") failure) ∧
      outcome.stdout = "/// a: alias i8\npub type A = i32;\n\n" ∧ outcome.written = none ∧
      outcome.status.code = 1) ∧
    ∃ outcome,
      run { host := "x86_64-unknown-linux-gnu" } .full ["m.toml"] = .done outcome ∧
      outcome.status.code = 2 ∧ outcome.stdout = "" ∧ outcome.written = none := by
  have hargs : Options.ofArgs ["m.toml"] = .ok { module := some "m.toml" } := by decide +kernel
  have hloads := Run.loads_tiny (o := { module := some "m.toml" }) rfl rfl rfl rfl
  have hproduce := Run.produce_tiny (o := { module := some "m.toml" }) rfl rfl rfl rfl
  constructor
  · obtain ⟨outcome, hrun⟩ : ∃ outcome,
        run { host := "x86_64-unknown-linux-gnu" } .tiny ["m.toml"] = .done outcome := by
      rw [run_eq_onInterface hargs rfl rfl rfl, Run.onInterface_of_ok hproduce]
      exact ⟨_, rfl⟩
    have hnone := Run.not_raises_of_produce hproduce
    refine ⟨outcome, hrun, hnone, ?_⟩
    obtain ⟨settings, config, i, host, text, hread, hover, hload, hhost, hresult, hend⟩ :=
      (run_all_or_nothing _ _ _ _ _ _ hargs rfl rfl rfl hrun).2 hnone
    obtain rfl := Except.ok.inj (hloads.read.symm.trans hread)
    obtain rfl := Except.ok.inj (hloads.interface.symm.trans hload)
    obtain rfl : Host.rust = host := by
      rw [show Host.find _ = .ok .rust by decide +kernel] at hhost
      exact Except.ok.inj hhost
    obtain rfl : .linux = config :=
      congr (congrArg Config.mk (hover.keptTarget rfl).symm) (hover.keptEnumRepr rfl).symm
    rw [show Path.text (.ofText "m.toml") = "m.toml" by decide +kernel] at hresult
    obtain rfl := Except.ok.inj ((Run.generate_tiny false).symm.trans hresult)
    rcases hend with ⟨refusal, hrefusal, -⟩ | ⟨-, hstdout, hwritten, -, -, hcode⟩
    · cases hrefusal
    · exact ⟨hstdout, hwritten, hcode.mpr ⟨rfl, .inr (.inl ⟨_, List.mem_singleton_self _,
        List.mem_singleton_self _⟩)⟩⟩
  · have hfull : (Run.produce "x86_64-unknown-linux-gnu" .full { module := some "m.toml" }
        (.ofText "m.toml")).1 = .ok "/// a: alias i8\npub type A = i32;\n\n" := by
      rw [Disk.full, Run.produce_refusal, hproduce]
    obtain ⟨outcome, hrun⟩ : ∃ outcome,
        run { host := "x86_64-unknown-linux-gnu" } .full ["m.toml"] = .done outcome := by
      rw [run_eq_onInterface hargs rfl rfl rfl, Run.onInterface_of_ok hfull]
      exact ⟨_, rfl⟩
    refine ⟨outcome, hrun, ?_⟩
    obtain ⟨_, _, _, _, _, -, -, -, -, -, hend⟩ :=
      (run_all_or_nothing _ _ _ _ _ _ hargs rfl rfl rfl hrun).2 (Run.not_raises_of_produce hfull)
    rcases hend with ⟨_, -, hcode, hstdout, hwritten, -⟩ | ⟨hrefusal, -⟩
    · exact ⟨hcode, hstdout, hwritten⟩
    · cases hrefusal

/-- A command line that names a file but asks for versions writes no text of the interface that the
file describes, and still does not end with the code 2. -/
theorem versions_write_no_text :
    ¬ ∀ (versions : Versions) (disk : Disk) (args : List String) (o : Options)
      (name text : String) (outcome : Outcome), Options.ofArgs args = .ok o →
      Settings.nonEmpty? o.module = some name → run versions disk args = .done outcome →
      (Run.produce versions.host disk o (.ofText name)).1 = .ok text →
      outcome.status.code = 2 ∨
        outcome.stdout = (if o.out.nonEmpty?.isSome then "" else text) ∧
        outcome.written = o.out.nonEmpty?.map (fun out => (Path.ofText out, text)) := by
  intro hclaim
  have hargs : Options.ofArgs ["--version", "m.toml"] =
      .ok { module := some "m.toml", version := true } := by decide +kernel
  have hproduce :=
    Run.produce_tiny (o := { module := some "m.toml", version := true }) rfl rfl rfl rfl
  have hrun : ∃ stderr, run { host := "x86_64-unknown-linux-gnu" } .tiny ["--version", "m.toml"] =
      .done { status := .success, stderr } := by
    rw [run, hargs]
    exact ⟨_, rfl⟩
  obtain ⟨stderr, hrun⟩ := hrun
  rcases hclaim { host := "x86_64-unknown-linux-gnu" } _ _ _ _ _ _ hargs rfl hrun hproduce with
    hcode | ⟨hstdout, -⟩
  · cases hcode
  · have hempty : "" = "/// a: alias i8\npub type A = i32;\n\n" := hstdout
    exact absurd hempty (by decide)

end HostDecl
