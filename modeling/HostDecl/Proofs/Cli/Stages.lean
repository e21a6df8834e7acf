import HostDecl.Cli.Run
import HostDecl.Proofs.Reads

/-!
# The stages of a run

A run reads its settings, puts the options above them, reads the interface and generates. There is a
text exactly if every stage succeeds, and otherwise the first stage that fails says what the run
fails with (`Run.Raises`). What is left then is to write the text, or to tell of the failure.
-/

namespace HostDecl

/-- A disk on which there is nothing but one file. -/
def Disk.sole (name text : String) : Disk where
  directory := .ok (.ofText "/")
  read path := if path = .ofText name then .ok text.toUTF8 else .error .missing
  refusal _ := none

theorem Disk.has_sole {name text other : String} (h : Path.ofText other ≠ .ofText name) :
    (Disk.sole name text).has (.ofText other) = false := by
  simp only [has, sole, if_neg h]
  rfl

/-- Generating by the name of a host is generating for the host. -/
theorem generate_of_find {i : Interface} {backend : String} {host : Host}
    (h : Host.find backend = .ok host) (config : Config) (skipUnsupported : Bool)
    (reporter : Reporter) :
    generate i backend config skipUnsupported reporter =
      host.generate config i skipUnsupported reporter := by
  simp only [generate, h]

/-- Nothing comes out of a run but what it tells. -/
def Outcome.WritesNothing (outcome : Outcome) : Prop :=
  outcome.stdout = "" ∧ outcome.written = none ∧ outcome.torn = none

namespace Run

variable {machine : String} {disk : Disk} {o : Options} {path : Path} {failure : Failure}
  {text : String} {reporter : Reporter} {outcome : Outcome} {f : Fault}

/-! ## Reading and generating -/

theorem reads_orFault {α : Type} {x : Except Fault α} :
    Reads (orFault x) (x = .ok ·) fun failure => ∃ f, x = .error f ∧ failure = .fault f := by
  constructor <;> cases x <;> simp [orFault, Except.mapError, eq_comm]

/-- All that a run reads can be read, and this is what it is to generate. -/
structure Loads (machine : String) (disk : Disk) (o : Options) (path : Path) (settings : Settings)
    (job : Job) : Prop where
  read : loadSettings machine disk o.config.nonEmpty? = .ok settings
  backend : job.backend = o.backend.nonEmpty?.getD settings.backend
  config : Run.override settings.config o = .ok job.config
  interface : loadInterface disk path = .ok job.interface

/-- What the first stage of a run that fails, fails with. -/
inductive Raises (machine : String) (disk : Disk) (o : Options) (path : Path) : Failure → Prop
  | settings {failure : Failure}
      (h : loadSettings machine disk o.config.nonEmpty? = .error failure) :
      Raises machine disk o path failure
  | override {settings : Settings} {f : Fault}
      (hs : loadSettings machine disk o.config.nonEmpty? = .ok settings)
      (h : Run.override settings.config o = .error f) : Raises machine disk o path (.fault f)
  | interface {settings : Settings} {config : Config} {failure : Failure}
      (hs : loadSettings machine disk o.config.nonEmpty? = .ok settings)
      (hc : Run.override settings.config o = .ok config)
      (h : loadInterface disk path = .error failure) : Raises machine disk o path failure
  | generate {settings : Settings} {job : Job} {f : Fault}
      (hj : Loads machine disk o path settings job)
      (h : (HostDecl.generate job.interface job.backend job.config o.skipUnsupported
        { filename := path.text }).1 = .error f) : Raises machine disk o path (.fault f)

theorem reads_loadJob : Reads (loadJob machine disk o path)
    (fun job => ∃ settings, loadSettings machine disk o.config.nonEmpty? = .ok settings ∧
      ∃ config, Run.override settings.config o = .ok config ∧
        ∃ i, loadInterface disk path = .ok i ∧
          job = { backend := o.backend.nonEmpty?.getD settings.backend, config, interface := i })
    (fun failure => loadSettings machine disk o.config.nonEmpty? = .error failure ∨
      ∃ settings, loadSettings machine disk o.config.nonEmpty? = .ok settings ∧
        ((∃ f, Run.override settings.config o = .error f ∧ failure = .fault f) ∨
          ∃ config, Run.override settings.config o = .ok config ∧
            (loadInterface disk path = .error failure ∨
              ∃ i, loadInterface disk path = .ok i ∧ False))) :=
  .bind .self fun _ _ => .bind reads_orFault fun _ _ => .bind .self fun _ _ => .ok

theorem loadJob_eq_ok_iff {job : Job} :
    loadJob machine disk o path = .ok job ↔ ∃ settings, Loads machine disk o path settings job := by
  rw [reads_loadJob.ok_iff]
  constructor
  · rintro ⟨settings, hs, config, hc, i, hi, rfl⟩
    exact ⟨settings, hs, rfl, hc, hi⟩
  · rintro ⟨settings, hs, hb, hc, hi⟩
    exact ⟨settings, hs, job.config, hc, job.interface, hi, by rw [← hb]⟩

theorem produce_fst : (produce machine disk o path).1 =
    (loadJob machine disk o path >>= fun job =>
      orFault (HostDecl.generate job.interface job.backend job.config o.skipUnsupported
        { filename := path.text }).1) := by
  unfold produce
  cases loadJob machine disk o path <;> rfl

/-- There is a text if all stages succeed, and else a failure of the first that does not. -/
theorem reads_produce : Reads (produce machine disk o path).1
    (fun text => ∃ settings job, Loads machine disk o path settings job ∧
      (HostDecl.generate job.interface job.backend job.config o.skipUnsupported
        { filename := path.text }).1 = .ok text)
    (Raises machine disk o path) := by
  rw [produce_fst]
  refine (Reads.bind .self fun job _ => reads_orFault).congr (fun text => ?_) fun failure => ?_
  · simp only [loadJob_eq_ok_iff]
    constructor
    · rintro ⟨job, ⟨settings, hj⟩, h⟩
      exact ⟨settings, job, hj, h⟩
    · rintro ⟨settings, job, hj, h⟩
      exact ⟨job, ⟨settings, hj⟩, h⟩
  · rw [reads_loadJob.error_iff]
    simp only [loadJob_eq_ok_iff]
    constructor
    · rintro ((hs | ⟨settings, hs, ⟨f, hc, rfl⟩ | ⟨config, hc, hi | ⟨-, -, hno⟩⟩⟩) |
        ⟨job, ⟨settings, hj⟩, f, h, rfl⟩)
      · exact .settings hs
      · exact .override hs hc
      · exact .interface hs hc hi
      · exact hno.elim
      · exact .generate hj h
    · intro h
      cases h with
      | settings hs => exact .inl (.inl hs)
      | override hs hc => exact .inl (.inr ⟨_, hs, .inl ⟨_, hc, rfl⟩⟩)
      | interface hs hc hi => exact .inl (.inr ⟨_, hs, .inr ⟨_, hc, .inl hi⟩⟩)
      | generate hj h => exact .inr ⟨_, ⟨_, hj⟩, _, h, rfl⟩

theorem not_raises_of_produce (h : (produce machine disk o path).1 = .ok text) :
    ¬ ∃ failure, Raises machine disk o path failure := by
  rintro ⟨failure, hraises⟩
  have hfails := (reads_produce.error_iff failure).mpr hraises
  rw [h] at hfails
  cases hfails

/-- What is refused in the end does not change the text. -/
theorem produce_refusal (refusal : Outlet → Option OutletFault) :
    produce machine { disk with refusal } o path = produce machine disk o path := rfl

/-! ## One file -/

theorem textOf_toUTF8 (text : String) : textOf text.toUTF8 = .ok text := by
  have h : String.fromUTF8? text.toUTF8 = some text := dif_pos text.isValidUTF8
  unfold textOf
  rw [h]

/-- What is loaded where there is one interface on the disk and no settings file. -/
theorem loads_sole {name : String} {settings : Settings} {job : Job}
    (hname : (Path.ofText name).isPossible = true)
    (hsole : Path.ofText settingsName ≠ .ofText name) (hnamed : o.config.nonEmpty? = none)
    (hs : Settings.standard machine = .ok settings)
    (hb : job.backend = o.backend.nonEmpty?.getD settings.backend)
    (hc : Run.override settings.config o = .ok job.config)
    (hi : Interface.ofText (Path.ofText name).text (Path.ofText name).stem text =
      .ok job.interface) :
    Loads machine (.sole name text) o (.ofText name) settings job where
  read := by
    have hload : Reads (loadSettings machine (.sole name text) none) _ _ :=
      .bind .self fun directory _ => .self
    rw [hnamed]
    refine (hload.ok_iff _).mpr ⟨_, rfl, ?_⟩
    rw [if_neg (Bool.eq_false_iff.mp (Disk.has_sole hsole))]
    exact (reads_orFault.ok_iff settings).mpr hs
  backend := hb
  config := hc
  interface := by
    have hread : readFile (.sole name text) (.ofText name) (.ofText name) = .ok text.toUTF8 := by
      simp [readFile, hname, Disk.sole, Except.mapError]
    have hload : Reads (loadInterface (.sole name text) (.ofText name)) _ _ :=
      .bind .self fun bytes _ => .bind .self fun content _ => reads_orFault
    exact (hload.ok_iff _).mpr ⟨_, hread, _, textOf_toUTF8 text, hi⟩

/-! ## Endings -/

/-- A failure breaks a run off if it is a fault without a message. -/
theorem fail_eq_broken_iff :
    fail o reporter failure = .broken f ↔ failure = .fault f ∧ f.family? = none := by
  cases failure with
  | disk fault path => simp [fail]
  | fault fault =>
      rw [Failure.fault.injEq]
      cases hfamily : fault.family? with
      | none =>
          simp only [fail, hfamily, Ending.broken.injEq]
          constructor
          · rintro rfl
            exact ⟨rfl, hfamily⟩
          · exact And.left
      | some family =>
          have hne : ¬ (fault = f ∧ f.family? = none) := by
            rintro ⟨rfl, hnone⟩
            rw [hfamily] at hnone
            cases hnone
          cases family <;> simpa only [fail, hfamily, reduceCtorEq, false_iff] using hne

/-- A run that fails and is not broken off writes nothing. -/
theorem fail_eq_done (h : fail o reporter failure = .done outcome) :
    outcome.status = .failed ∧ outcome.WritesNothing := by
  cases failure with
  | disk fault path =>
      obtain rfl := Ending.done.inj h
      exact ⟨rfl, rfl, rfl, rfl⟩
  | fault fault =>
      cases hfamily : fault.family? with
      | none =>
          simp only [fail, hfamily] at h
          cases h
      | some family =>
          cases family <;> simp only [fail, hfamily] at h <;> obtain rfl := Ending.done.inj h <;>
            exact ⟨rfl, rfl, rfl, rfl⟩

/-- Writing breaks a run off only where no file can have the path. -/
theorem finish_eq_broken (h : finish disk o text reporter = .broken f) :
    f = .noSuchPath ∧
      ∃ out, o.out.nonEmpty? = some out ∧ (Path.ofText out).isPossible = false := by
  unfold finish at h
  split at h
  · split at h <;> cases h
  · rename_i hpossible
    cases h
    unfold outlet at hpossible
    cases hout : o.out.nonEmpty? with
    | none =>
        rw [hout] at hpossible
        exact (hpossible rfl).elim
    | some out =>
        rw [hout] at hpossible
        exact ⟨rfl, out, rfl, Bool.eq_false_iff.mpr hpossible⟩

/-- A run that has a text writes it, unless the outlet refuses. -/
theorem finish_eq_done (h : finish disk o text reporter = .done outcome) :
    (∃ refusal, disk.refusal (outlet o) = some refusal ∧
      outcome = giveUp text (outlet o) refusal) ∨
    disk.refusal (outlet o) = none ∧ outcome = succeed text (outlet o) reporter := by
  unfold finish at h
  split at h
  · split at h <;> rename_i hrefusal
    · exact .inr ⟨hrefusal, (Ending.done.inj h).symm⟩
    · exact .inl ⟨_, hrefusal, (Ending.done.inj h).symm⟩
  · cases h

@[simp] theorem status_succeed (text : String) (out : Outlet) (reporter : Reporter) :
    (succeed text out reporter).status = if reporter.hasWarnings then .warned else .success := by
  cases out <;> rfl

/-- All of the text goes to the stream, or all of it to a file. -/
theorem succeed_outlet (text : String) (o : Options) (reporter : Reporter) :
    (succeed text (outlet o) reporter).stdout =
        (if o.out.nonEmpty?.isSome then "" else text) ∧
      (succeed text (outlet o) reporter).written =
        o.out.nonEmpty?.map (fun out => (Path.ofText out, text)) ∧
      (succeed text (outlet o) reporter).torn = none := by
  unfold outlet
  cases o.out.nonEmpty? <;> exact ⟨rfl, rfl, rfl⟩

theorem onInterface_of_error (h : (produce machine disk o path).1 = .error failure) :
    onInterface machine disk o path = fail o (produce machine disk o path).2 failure := by
  unfold onInterface
  rcases hproduce : produce machine disk o path with ⟨failure' | text, reporter⟩ <;>
    rw [hproduce] at h <;> cases h
  rfl

theorem onInterface_of_ok (h : (produce machine disk o path).1 = .ok text) :
    onInterface machine disk o path = finish disk o text (produce machine disk o path).2 := by
  unfold onInterface
  rcases hproduce : produce machine disk o path with ⟨failure | text', reporter⟩ <;>
    rw [hproduce] at h <;> cases h
  rfl

end Run

/-- What is asked for versions or for the list of hosts, or names no file, comes to an end. -/
theorem run_eq_broken {versions : Versions} {disk : Disk} {args : List String} {f : Fault}
    (h : run versions disk args = .broken f) :
    ∃ o name, Options.ofArgs args = .ok o ∧ Settings.nonEmpty? o.module = some name ∧
      Run.onInterface versions.host disk o (.ofText name) = .broken f := by
  unfold run at h
  split at h
  · cases h
  · rename_i o ho
    unfold Run.withOptions at h
    split at h
    · cases h
    · split at h
      · cases h
      · split at h
        · cases h
        · rename_i name hname
          exact ⟨o, name, ho, hname, h⟩

/-- A command line that names a file and asks for nothing else is a run on an interface. -/
theorem run_eq_onInterface {versions : Versions} {disk : Disk} {args : List String} {o : Options}
    {name : String} (hargs : Options.ofArgs args = .ok o) (hversion : o.version = false)
    (hlist : o.listBackends = false) (hname : Settings.nonEmpty? o.module = some name) :
    run versions disk args = Run.onInterface versions.host disk o (.ofText name) := by
  simp [run, hargs, Run.withOptions, hversion, hlist, hname]

end HostDecl
