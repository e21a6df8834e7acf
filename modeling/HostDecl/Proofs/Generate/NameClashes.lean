import HostDecl.Proofs.Backend.Failures
import HostDecl.Proofs.Generate.Acceptance

/-!
# Names that meet in IR

The loader keeps the names of declarations apart as they are spelled, and looks at no names inside
of them. In IR it is the converted names that have to be apart, those of structs and those of the
variants of enums and of functions. Where two of them meet, or one is empty, a run breaks off with a
fault that is none of the generator's own (`Interface.NamesMeet`); where they do not, only the order
of declarations and a type that contains itself are left to fail for (`Llvm.generate_failsOnly`).
-/

namespace HostDecl

namespace Symbol

theorem count_filterMap_struct? (symbols : List Symbol) (name : String) :
    (symbols.filterMap struct?).count name = symbols.count (.struct name) := by
  rw [List.count_filterMap, List.count]
  refine List.countP_congr fun c _ => ?_
  cases c <;> simp [struct?]

theorem count_filterMap_global? (symbols : List Symbol) (name : String) :
    (symbols.filterMap global?).count name = symbols.count (.global name) := by
  rw [List.count_filterMap, List.count]
  refine List.countP_congr fun c _ => ?_
  cases c <;> simp [global?]

end Symbol

/-- Names of the interface meet in IR, or one is empty there, and the fault is what comes of it. -/
inductive Interface.NamesMeet (i : Interface) : Fault → Prop
  | empty (h : "" ∈ i.irStructNames ∨ "" ∈ i.irGlobalNames) : NamesMeet i (.nameTaken "")
  | structs (name : String) (h : 2 ≤ i.irStructNames.count name) : NamesMeet i (.bodySetTwice name)
  | globals (name : String) (h : 2 ≤ i.irGlobalNames.count name) : NamesMeet i (.nameTaken name)

namespace Llvm

variable {config : Config} {i : Interface} {skipUnsupported : Bool} {reporter : Reporter}

/-- A name that the declarations of the interface claim twice, or that is held from the start. -/
theorem namesMeet_of_claims (config : Config) {c : Symbol}
    (hc : c ∈ i.decls.flatMap (sheet config).claims)
    (h : c ∈ (sheet config).held (backend config).start ∨
      2 ≤ (i.decls.flatMap (sheet config).claims).count c) : i.NamesMeet c.refusal := by
  have hheld : (sheet config).held (backend config).start = [.struct "", .global ""] := rfl
  cases c with
  | struct name =>
      rw [← Symbol.mem_filterMap_struct?, filterMap_struct?_claims] at hc
      rw [← Symbol.count_filterMap_struct?, filterMap_struct?_claims] at h
      by_cases hname : name = ""
      · subst hname
        exact .empty (.inl hc)
      · have hcount : 2 ≤ i.irStructNames.count name := by simpa [hheld, hname] using h
        simpa [Symbol.refusal, hname] using Interface.NamesMeet.structs name hcount
  | global name =>
      rw [← Symbol.mem_filterMap_global?, filterMap_global?_claims] at hc
      rw [← Symbol.count_filterMap_global?, filterMap_global?_claims] at h
      by_cases hname : name = ""
      · subst hname
        exact .empty (.inr hc)
      · exact .globals name (by simpa [hheld, hname] using h)

/-- Whatever a run of a coherent interface breaks off with: a declaration in front of one that it
uses, a type that contains itself, or names that meet. -/
theorem generate_failsOnly (hi : i.Coherent) {f : Fault}
    (hf : (Host.llvm.generate config i skipUnsupported reporter).1 = .error f) :
    (∃ name id, f = .notEmitted name id) ∨ (∃ name id, f = .containsItself name id) ∨
      i.NamesMeet f := by
  have hrun : FailsOnly ((backend config).run i skipUnsupported)
      ((backend config).newSession reporter) fun f => (∃ name id, f = .notEmitted name id) ∨
        (∃ name id, f = .containsItself name id) ∨ i.NamesMeet f := by
    refine (describes config).failsOnly_run_of hi reporter
      (failsOnly_admitFunctions_of_emitsFunctions rfl _) ?_
    intro done d todo t hsplit hcovers hawaits
    have hd : d ∈ i.decls := by simp [hsplit]
    refine (refused_emitDecl hi hd hcovers hawaits.trusted hawaits.fresh).mono fun f hrefused => ?_
    cases hrefused with
    | notEmitted name id => exact .inl ⟨name, id, rfl⟩
    | containsItself name id => exact .inr (.inl ⟨name, id, rfl⟩)
    | taken c hc h =>
        have hall : i.decls.flatMap (sheet config).claims = done.flatMap (sheet config).claims ++
            ((sheet config).claims d ++ todo.flatMap (sheet config).claims) := by
          simp [hsplit]
        refine .inr (.inr (namesMeet_of_claims config (List.mem_flatMap.mpr ⟨d, hd, hc⟩) ?_))
        rw [hawaits.held] at h
        rw [hall, List.count_append, List.count_append]
        have hclaimed := List.count_pos_iff.mpr hc
        rcases h with (hstart | hdone) | htwice
        · exact .inl hstart
        · have hfront := List.count_pos_iff.mpr hdone
          exact .inr (by omega)
        · exact .inr (by omega)
  rw [Host.generate, Backend.generate_eq] at hf
  split at hf
  · cases hf
  · rename_i fault t hfault
    cases hf
    exact hrun _ _ hfault

end Llvm

end HostDecl
