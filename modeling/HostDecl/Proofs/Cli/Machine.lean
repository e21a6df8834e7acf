import HostDecl.Proofs.Cli.Exact

/-!
# Runs on other machines

The machine counts in one place: it is the target where the settings leave the target open. An
option that names a target replaces it, but not before the machine has been looked up. With such an
option, machines are alike to a run as long as their architectures are known, or the settings name a
target of their own. On any other machine the run fails for a target that it has no use for
(`run_with_target`).
-/

namespace HostDecl

/-- The architecture of the triple is known. -/
def Target.Known (triple : String) : Prop :=
  ∃ target, Target.ofTriple triple = .ok target

theorem Target.ofTriple_eq_error {triple : String} {f : Fault} (h : ofTriple triple = .error f) :
    ∃ arch, f = .unknownArchitecture arch triple := by
  simp only [ofTriple] at h
  split at h
  · cases h
  · exact ⟨_, (Except.error.inj h).symm⟩

instance (triple : String) : Decidable (Target.Known triple) :=
  match h : Target.ofTriple triple with
  | .ok target => isTrue ⟨target, h⟩
  | .error _ => isFalse fun ⟨_, hok⟩ => nomatch h.symm.trans hok

/-- The versions on another machine. -/
def Versions.on (versions : Versions) (machine : String) : Versions :=
  { versions with host := machine }

namespace Settings

/-! ## Reading settings, apart from the machine -/

/-- What a settings text says, before any of it is looked up. -/
structure Entries where
  backend : Option String := none
  triple : Option String := none
  enumText : Option String := none

/-- The target is left open. -/
def Entries.AsksMachine (e : Entries) : Prop :=
  nonEmpty? e.triple = none

def Entries.enumRepr (e : Entries) : Except Fault (Option IntAtom) :=
  match nonEmpty? e.enumText with
  | none => pure none
  | some text => some <$> readEnumRepr text

/-- The settings that the entries come to on a machine. -/
def Entries.settings (machine : String) (e : Entries) : Except Fault Settings := do
  let target ← Target.ofTriple ((nonEmpty? e.triple).getD machine)
  let enumRepr ← e.enumRepr
  pure { backend := e.backend.getD "rust", config := { target, enumRepr } }

def Entries.ofTable (path : String) (t : Toml.Table) : Except Fault Entries := do
  let entries ← readSection path t
  let backend ← readText? path entries "name"
  let triple ← readText? path entries "target"
  let enumText ← readText? path entries "enum_repr"
  pure { backend, triple, enumText }

def Entries.ofText (path text : String) : Except Fault Entries :=
  match Toml.parse text with
  | .ok t => ofTable path t
  | .error .malformed => .error (.malformedConfig path .syntaxError)
  | .error .longInteger => .error .longInteger

theorem standard_eq (machine : String) : standard machine = Entries.settings machine {} :=
  rfl

theorem ofTable_eq (machine path : String) (t : Toml.Table) :
    ofTable machine path t = Entries.ofTable path t >>= Entries.settings machine := by
  simp only [ofTable, Entries.ofTable, Entries.settings, bind_assoc, pure_bind]
  refine bind_congr fun entries => bind_congr fun backend => bind_congr fun triple =>
    bind_congr fun enumText => bind_congr fun target => ?_
  cases henum : nonEmpty? enumText <;> simp [Entries.enumRepr, henum]

theorem ofText_eq (machine path text : String) :
    ofText machine path text = Entries.ofText path text >>= Entries.settings machine := by
  unfold ofText Entries.ofText
  cases Toml.parse text with
  | ok t => exact ofTable_eq machine path t
  | error failure => cases failure <;> rfl

/-- The settings on a machine: those that a text at a path gives, or the standard ones. -/
def ofSource (machine : String) : Option (String × String) → Except Fault Settings
  | none => standard machine
  | some (path, text) => ofText machine path text

def Entries.ofSource : Option (String × String) → Except Fault Entries
  | none => .ok {}
  | some (path, text) => ofText path text

theorem ofSource_eq (machine : String) (source : Option (String × String)) :
    ofSource machine source = Entries.ofSource source >>= Entries.settings machine := by
  cases source with
  | none => exact standard_eq machine
  | some source => exact ofText_eq machine source.1 source.2

/-- The settings leave the target open: there is no text, or it can be read and names none. -/
def AsksMachine (source : Option (String × String)) : Prop :=
  ∃ entries, Entries.ofSource source = .ok entries ∧ entries.AsksMachine

/-! ## The same settings, up to the target -/

/-- Two readings fail alike, or come to settings that differ at most in the target. -/
inductive Alike : Except Fault Settings → Except Fault Settings → Prop
  | error (f : Fault) : Alike (.error f) (.error f)
  | ok {s s' : Settings} (backend : s.backend = s'.backend)
      (enumRepr : s.config.enumRepr = s'.config.enumRepr) : Alike (.ok s) (.ok s')

/-- What does not look at the target comes to the same for both. -/
theorem Alike.congr {β : Type} {x x' : Except Fault Settings} (h : Alike x x')
    (F : Except Fault Settings → β)
    (hF : ∀ s s' : Settings, s.backend = s'.backend → s.config.enumRepr = s'.config.enumRepr →
      F (.ok s) = F (.ok s')) : F x = F x' := by
  cases h with
  | error f => rfl
  | ok hbackend hrepr => exact hF _ _ hbackend hrepr

namespace Entries

variable {e : Entries} {machine machine' : String} {f : Fault}

theorem settings_alike
    (h : e.AsksMachine → Target.Known machine ∧ Target.Known machine') :
    Alike (e.settings machine) (e.settings machine') := by
  unfold settings
  cases htriple : nonEmpty? e.triple with
  | some triple =>
      simp only [Option.getD_some]
      cases Target.ofTriple triple with
      | error f => exact .error f
      | ok target =>
          cases e.enumRepr with
          | error f => exact .error f
          | ok enumRepr => exact .ok rfl rfl
  | none =>
      -- only here the machine counts, and it is no more than the target
      obtain ⟨⟨target, htarget⟩, target', htarget'⟩ := h htriple
      simp only [Option.getD_none, htarget, htarget']
      cases e.enumRepr with
      | error f => exact .error f
      | ok enumRepr => exact .ok rfl rfl

/-- The machine is looked up before anything else. -/
theorem settings_eq_error (h : e.AsksMachine) (hf : Target.ofTriple machine = .error f) :
    e.settings machine = .error f := by
  have hempty : nonEmpty? e.triple = none := h
  simp only [settings, hempty, Option.getD_none, hf]
  rfl

end Entries

end Settings

/-! ## Options above settings that differ in the target -/

namespace Config

variable {config config' : Config}

theorem withTarget_congr (h : config.enumRepr = config'.enumRepr) (triple : String) :
    config.withTarget (some triple) = config'.withTarget (some triple) := by
  simp only [withTarget, h]

theorem withOverrides_congr (h : config.enumRepr = config'.enumRepr) (triple : String)
    (enumText : Option String) :
    config.withOverrides (some triple) enumText = config'.withOverrides (some triple) enumText := by
  rw [withOverrides, withTarget_congr h, withOverrides]

end Config

namespace Settings

variable {machine machine' : String} {source : Option (String × String)} {triple : String}
  {enumText : Option String} {f : Fault}

/-- The settings of a backend on a machine, with another target above them. -/
def configFor (machine : String) (source : Option (String × String)) (triple : String)
    (enumText : Option String) : Except Fault Config := do
  (← ofSource machine source).config.withOverrides (some triple) enumText

theorem configFor_congr
    (h : AsksMachine source → Target.Known machine ∧ Target.Known machine') :
    configFor machine source triple enumText = configFor machine' source triple enumText := by
  unfold configFor
  rw [ofSource_eq, ofSource_eq]
  cases hentries : Entries.ofSource source with
  | error f => rfl
  | ok e =>
      have halike := e.settings_alike fun hasks => h ⟨e, hentries, hasks⟩
      exact halike.congr (fun x => x >>= fun s => s.config.withOverrides (some triple) enumText)
        fun s s' _ hrepr => Config.withOverrides_congr hrepr triple enumText

theorem configFor_eq_error (h : AsksMachine source) (hf : Target.ofTriple machine = .error f) :
    configFor machine source triple enumText = .error f := by
  obtain ⟨e, hentries, hasks⟩ := h
  unfold configFor
  rw [ofSource_eq, hentries]
  change (e.settings machine >>= _) = _
  rw [Entries.settings_eq_error hasks hf]
  rfl

end Settings

namespace Run

variable {disk : Disk} {o : Options} {machine machine' : String} {path : Path} {f : Fault}

theorem override_congr {config config' : Config} (htarget : o.target ≠ .missing)
    (h : config.enumRepr = config'.enumRepr) : override config o = override config' o := by
  unfold override
  cases hgiven : o.target with
  | missing => exact (htarget hgiven).elim
  | blank => rfl
  | text triple =>
      change (config.withTarget (some triple) >>= _) = config'.withTarget (some triple) >>= _
      rw [Config.withTarget_congr h]

theorem orFault_bind {α β : Type} (x : Except Fault α) (g : α → Except Fault β) :
    orFault (x >>= g) = orFault x >>= fun a => orFault (g a) := by
  cases x <;> rfl

/-! ## Runs -/

def entriesOfFile (disk : Disk) (path shown : Path) : Except Failure Settings.Entries := do
  let text ← textOf (← readFile disk path shown)
  orFault (Settings.Entries.ofText shown.text text)

/-- What the settings say that a run reads. -/
def loadEntries (disk : Disk) (named : Option String) : Except Failure Settings.Entries :=
  match named with
  | some text => entriesOfFile disk (.ofText text) (.ofText text)
  | none => do
    let directory ← disk.directory.mapError fun fault => .disk fault none
    let path := Path.ofText settingsName
    if disk.has path then entriesOfFile disk path (directory.child settingsName)
    else pure {}

theorem settingsOfFile_eq (machine : String) (disk : Disk) (path shown : Path) :
    settingsOfFile machine disk path shown =
      entriesOfFile disk path shown >>= fun e => orFault (e.settings machine) := by
  simp only [settingsOfFile, entriesOfFile, Settings.ofText_eq, orFault_bind, bind_assoc]

theorem loadSettings_eq (machine : String) (disk : Disk) (named : Option String) :
    loadSettings machine disk named =
      loadEntries disk named >>= fun e => orFault (e.settings machine) := by
  cases named with
  | some text => exact settingsOfFile_eq machine disk _ _
  | none =>
      simp only [loadSettings, loadEntries, bind_assoc]
      refine bind_congr fun directory => ?_
      split
      · exact settingsOfFile_eq machine disk _ _
      · rfl

theorem loadJob_congr (htarget : o.target ≠ .missing)
    (h : ∀ e, loadEntries disk o.config.nonEmpty? = .ok e → e.AsksMachine →
      Target.Known machine ∧ Target.Known machine') :
    loadJob machine disk o path = loadJob machine' disk o path := by
  unfold loadJob
  rw [loadSettings_eq, loadSettings_eq]
  cases hentries : loadEntries disk o.config.nonEmpty? with
  | error failure => rfl
  | ok e =>
      have halike := e.settings_alike (h e hentries)
      refine halike.congr (fun x => orFault x >>= _) fun s s' hbackend hrepr => ?_
      change (orFault (override s.config o) >>= _) = orFault (override s'.config o) >>= _
      rw [override_congr htarget hrepr, hbackend]

theorem onInterface_congr (htarget : o.target ≠ .missing)
    (h : ∀ e, loadEntries disk o.config.nonEmpty? = .ok e → e.AsksMachine →
      Target.Known machine ∧ Target.Known machine') :
    onInterface machine disk o path = onInterface machine' disk o path := by
  simp only [onInterface, produce, loadJob_congr htarget h]

/-- A machine that is asked for and not known ends the run, whatever the options are. -/
theorem onInterface_of_unknown {e : Settings.Entries}
    (hentries : loadEntries disk o.config.nonEmpty? = .ok e) (hasks : e.AsksMachine)
    (hf : Target.ofTriple machine = .error f) :
    onInterface machine disk o path =
      .done { status := .failed, stderr := "error: " ++ f.text ++ "\n" } := by
  have hjob : loadJob machine disk o path = .error (.fault f) := by
    unfold loadJob
    rw [loadSettings_eq, hentries]
    change (orFault (e.settings machine) >>= _) = _
    rw [Settings.Entries.settings_eq_error hasks hf]
    rfl
  have hfamily : f.family? = some .config := by
    obtain ⟨arch, rfl⟩ := Target.ofTriple_eq_error hf
    rfl
  simp only [onInterface, produce, hjob, fail, hfamily]
  rfl

/-- A run with these arguments looks up the machine: it takes an interface, and the settings leave
the target open. -/
def AsksMachine (disk : Disk) (args : List String) : Prop :=
  ∃ o name e, Options.ofArgs args = .ok o ∧ o.version = false ∧ o.listBackends = false ∧
    Settings.nonEmpty? o.module = some name ∧ loadEntries disk o.config.nonEmpty? = .ok e ∧
    e.AsksMachine

/-- A run with these arguments does nothing but name versions. -/
def TellsVersions (args : List String) : Prop :=
  ∃ o, Options.ofArgs args = .ok o ∧ o.version = true

theorem run_congr {versions : Versions} {args : List String} (hversions : ¬ TellsVersions args)
    (htarget : ∀ o, Options.ofArgs args = .ok o → o.target ≠ .missing)
    (h : AsksMachine disk args → Target.Known machine ∧ Target.Known machine') :
    run (versions.on machine) disk args = run (versions.on machine') disk args := by
  unfold run
  cases hargs : Options.ofArgs args with
  | error usage => rfl
  | ok o =>
      cases hversion : o.version with
      | true => exact (hversions ⟨o, hargs, hversion⟩).elim
      | false =>
          cases hlist : o.listBackends with
          | true => simp [withOptions, hversion, hlist]
          | false =>
              cases hname : Settings.nonEmpty? o.module with
              | none => simp [withOptions, hversion, hlist, hname]
              | some name =>
                  simp only [withOptions, hversion, hlist, hname, Bool.false_eq_true, if_false]
                  exact onInterface_congr (htarget o hargs) fun e hentries hasks =>
                    h ⟨o, name, e, hargs, hversion, hlist, hname, hentries, hasks⟩

end Run

/-- A command line that names a target makes a run independent of the machine, up to one point: if
no settings file names a target, the machine is looked up before the target that is named replaces
it. So the run ends the same way on any two machines, if it does not look them up or both are known
(and if it does not just tell of the versions, and thereby of the machine); and where it looks up a
machine that is not known, it fails by that. The same holds of settings with another target above
them. -/
theorem run_with_target (versions : Versions) (disk : Disk) (args : List String)
    (htarget : ∀ o, Options.ofArgs args = .ok o → o.target ≠ .missing) :
    (∀ machine machine', ¬ Run.TellsVersions args →
      (Run.AsksMachine disk args → Target.Known machine ∧ Target.Known machine') →
      run (versions.on machine) disk args = run (versions.on machine') disk args) ∧
    (∀ machine, Run.TellsVersions args → run (versions.on machine) disk args =
      .done { status := .success, stderr := (versions.on machine).banner false }) ∧
    (∀ machine f, Run.AsksMachine disk args → Target.ofTriple machine = .error f →
      run (versions.on machine) disk args =
        .done { status := .failed, stderr := "error: " ++ f.text ++ "\n" }) ∧
    ∀ source triple enumText,
      (∀ machine machine', (Settings.AsksMachine source →
          Target.Known machine ∧ Target.Known machine') →
        Settings.configFor machine source triple enumText =
          Settings.configFor machine' source triple enumText) ∧
      ∀ machine f, Settings.AsksMachine source → Target.ofTriple machine = .error f →
        Settings.configFor machine source triple enumText = .error f := by
  refine ⟨fun machine machine' hversions h => Run.run_congr hversions htarget h, ?_, ?_,
    fun source triple enumText => ⟨fun machine machine' h => Settings.configFor_congr h,
      fun machine f h hf => Settings.configFor_eq_error h hf⟩⟩
  · rintro machine ⟨o, hargs, hversion⟩
    simp [run, hargs, Run.withOptions, hversion]
  · rintro machine f ⟨o, name, e, hargs, hversion, hlist, hname, hentries, hasks⟩ hf
    rw [run_eq_onInterface hargs hversion hlist hname]
    exact Run.onInterface_of_unknown hentries hasks hf

/-- A command line that names a target and a file. -/
def Run.retargeted : List String :=
  ["--target", "x86_64-unknown-linux-gnu", "m.toml"]

/-- On two machines that are known, a run for one target writes the same. On one that is not known,
it fails. -/
theorem run_with_target_tiny :
    (∀ o, Options.ofArgs Run.retargeted = .ok o → o.target ≠ .missing) ∧
    run { host := "aarch64-apple-darwin" } .tiny Run.retargeted =
      run { host := "x86_64-unknown-linux-gnu" } .tiny Run.retargeted ∧
    run { host := "x86_64-unknown-linux-gnu" } .tiny Run.retargeted =
      .done
        { status := .warned
          stdout := "/// a: alias i8\npub type A = i32;\n\n"
          stderr := "m.toml:a: warning [CW0001]: i8 is emitted as i32 on the rust backend, which "
            ++ "changes layout.\nidlc: 1 warning\n" } ∧
    run { host := "powerpc64le-unknown-linux-gnu" } .tiny Run.retargeted =
      .done
        { status := .failed
          stderr := "error: CE2002: unsupported target architecture 'powerpc64le' in triple "
            ++ "'powerpc64le-unknown-linux-gnu'\n" } := by
  let o : Options := { module := some "m.toml", target := .text "x86_64-unknown-linux-gnu" }
  have hargs : Options.ofArgs Run.retargeted = .ok o := by decide +kernel
  have htarget : ∀ o', Options.ofArgs Run.retargeted = .ok o' → o'.target ≠ .missing := by
    intro o' ho'
    obtain rfl := Except.ok.inj (hargs.symm.trans ho')
    exact OptionValue.noConfusion
  have hversions : ¬ Run.TellsVersions Run.retargeted := by
    rintro ⟨o', ho', hversion⟩
    obtain rfl := Except.ok.inj (hargs.symm.trans ho')
    cases hversion
  have hasks : Run.AsksMachine .tiny Run.retargeted := by
    have hsole : Path.ofText Run.settingsName ≠ .ofText "m.toml" := by decide +kernel
    have hhas : Disk.tiny.has (.ofText Run.settingsName) = false := Disk.has_sole hsole
    refine ⟨o, "m.toml", {}, hargs, rfl, rfl, by decide, ?_, rfl⟩
    simp only [o, Run.loadEntries, OptionValue.nonEmpty?, hhas]
    rfl
  have hknown : Target.Known "aarch64-apple-darwin" ∧ Target.Known "x86_64-unknown-linux-gnu" := by
    decide +kernel
  have hloads := Run.loads_tiny (o := { module := some "m.toml" }) rfl rfl rfl rfl
  have hjob : Run.loadJob "x86_64-unknown-linux-gnu" .tiny o (.ofText "m.toml") =
      .ok { backend := "rust", config := .linux, interface := .tiny } :=
    Run.loadJob_eq_ok_iff.mpr
      ⟨_, hloads.read, rfl, by decide +kernel, hloads.interface⟩
  have hlaw := run_with_target { host := "" } .tiny Run.retargeted htarget
  refine ⟨htarget, hlaw.1 _ _ hversions fun _ => hknown, ?_, ?_⟩
  · rw [run_eq_onInterface hargs rfl rfl rfl]
    simp only [Run.onInterface, Run.produce, hjob]
    decide +kernel
  · refine (hlaw.2.2.1 "powerpc64le-unknown-linux-gnu"
      (.unknownArchitecture "powerpc64le" "powerpc64le-unknown-linux-gnu") hasks
      (by decide +kernel)).trans ?_
    decide +kernel

end HostDecl
