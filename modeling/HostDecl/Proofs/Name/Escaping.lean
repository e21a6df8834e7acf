import HostDecl.Host
import HostDecl.Proofs.Name.Respelling

/-!
# Which names are spelled alike

A host spells a name in one of three ways: in the style of its role, escaped where that would be a
reserved word, or as it was declared if there is no word in it. What a style makes has no number
sign and ends with a letter or a digit, while an escaped word shows that it is one (`Marked`). So an
escape meets neither a reserved word nor the spelling of another name, and two names are spelled
alike only where their styles make the same of them (`apply_eq_apply_iff`).

Styles that put underscores between words make the same of two names exactly if these have the same
words but for the case of letters (`CaseStyle.convert_eq_convert_iff`).
-/

namespace HostDecl

theorem wordsOf_eq_nil_iff {name : String} : wordsOf name = [] ↔ ¬ HasWord name := by
  rw [wordsOf, List.map_eq_nil_iff]
  exact ⟨fun h hword => words_ne_nil hword h, fun h => words_eq_nil (not_hasWord_iff.mp h)⟩

/-! ## What styles make of names -/

theorem underscored_ne_nil {w : List Char} (hw : w ≠ []) (ws : List (List Char)) :
    underscored (w :: ws) ≠ [] := by
  intro h
  have hhead := head?_underscored hw ws
  rw [h] at hhead
  exact hw (List.head?_eq_none_iff.mp hhead.symm)

theorem map_underscored {f : Char → Char} (h : f '_' = '_') (ws : List (List Char)) :
    (underscored ws).map f = underscored (ws.map (List.map f)) := by
  fun_induction underscored ws with
  | case1 => rfl
  | case2 w => rfl
  | case3 w ws hmore ih =>
      obtain ⟨w', ws, rfl⟩ := List.exists_cons_of_ne_nil hmore
      rw [List.map_append, List.map_cons, h, ih]
      rfl

/-- Joined words end with a letter or a digit. -/
theorem isWordChar_getLast?_underscored {ws : List (List Char)}
    (h : ∀ w ∈ ws, w ≠ [] ∧ ∀ c ∈ w, isWordChar c = true) :
    ∀ c ∈ (underscored ws).getLast?, isWordChar c = true := by
  fun_induction underscored ws with
  | case1 => simp
  | case2 w => exact fun c hc => (h w (by simp)).2 c (List.mem_of_getLast? hc)
  | case3 w ws hmore ih =>
      obtain ⟨hw, hws⟩ := List.forall_mem_cons.mp h
      obtain ⟨w', ws, rfl⟩ := List.exists_cons_of_ne_nil hmore
      have hne := underscored_ne_nil (hws w' List.mem_cons_self).1 ws
      rw [List.getLast?_append, List.getLast?_cons, List.getLast?_eq_getLast_of_ne_nil hne]
      rw [List.getLast?_eq_getLast_of_ne_nil hne] at ih
      exact ih hws

namespace CaseStyle

theorem isWordChar_getLast?_convert (style : CaseStyle) (name : String) :
    ∀ c ∈ (style.convert name).toList.getLast?, isWordChar c = true := by
  have hwords := isWordChar_words name.toList
  rw [convert, String.toList_ofList]
  cases style with
  | camel =>
      intro c hc
      obtain ⟨w, hw, hc⟩ := List.mem_flatMap.mp (List.mem_of_getLast? hc)
      exact isWordChar_capitalise (hwords w hw).2 c hc
  | snake =>
      refine isWordChar_getLast?_underscored (List.forall_mem_map.mpr fun w hw => ⟨?_, ?_⟩)
      · simpa using (hwords w hw).1
      · exact List.forall_mem_map.mpr fun c hc => isWordChar_toLower ((hwords w hw).2 c hc)
  | shouty =>
      refine isWordChar_getLast?_underscored (List.forall_mem_map.mpr fun w hw => ⟨?_, ?_⟩)
      · simpa using (hwords w hw).1
      · exact List.forall_mem_map.mpr fun c hc => isWordChar_toUpper ((hwords w hw).2 c hc)

theorem toLower_shouty (name : String) : (shouty.convert name).toLower = snake.convert name := by
  have hlowered : lowered (shouty.join (words name.toList)) = snake.join (words name.toList) := by
    calc lowered (underscored ((words name.toList).map raised))
        = underscored (((words name.toList).map raised).map lowered) := map_underscored rfl _
      _ = underscored ((words name.toList).map lowered) := by
        rw [List.map_map]
        refine congrArg underscored (List.map_congr_left fun w hw => ?_)
        exact lowered_raised (isWordChar_words name.toList w hw).2
  rw [convert, toLower_ofList, hlowered, convert]

/-- Styles with underscores make the same of two names exactly if these have the same words but for
the case of letters. -/
theorem convert_eq_convert_iff {style : CaseStyle} (h : style ≠ .camel) {a b : String} :
    style.convert a = style.convert b ↔
      (wordsOf a).map String.toLower = (wordsOf b).map String.toLower := by
  have hinj : Function.Injective (List.map String.ofList) :=
    List.map_injective_iff.mpr fun _ _ => String.ofList_injective
  rw [map_toLower_wordsOf, map_toLower_wordsOf, hinj.eq_iff, ← snake_eq_snake_iff]
  cases style with
  | camel => exact (h rfl).elim
  | snake => rfl
  | shouty =>
      constructor
      · intro heq
        rw [← toLower_shouty, ← toLower_shouty, heq]
      · intro heq
        rw [← convert_snake shouty a, ← convert_snake shouty b, heq]

end CaseStyle

/-! ## Escaped words -/

/-- The text shows that a word was escaped: it has a number sign or ends with an underscore. -/
def Marked (text : String) : Prop :=
  '#' ∈ text.toList ∨ text.toList.getLast? = some '_'

instance (text : String) : Decidable (Marked text) :=
  inferInstanceAs (Decidable (_ ∨ _))

theorem CaseStyle.not_marked_convert (style : CaseStyle) (name : String) :
    ¬ Marked (style.convert name) := by
  rintro (h | h)
  · exact absurd (style.isIdentChar_convert name '#' h) (by decide)
  · exact absurd (style.isWordChar_getLast?_convert name '_' h) (by decide)

namespace Escape

theorem marked_apply {escape : Escape} (h : escape ≠ .asIs) (text : String) :
    Marked (escape.apply text) := by
  have hunderscore : Marked (text ++ "_") := .inr (by simp)
  cases escape with
  | asIs => exact (h rfl).elim
  | underscore => exact hunderscore
  | raw =>
      rw [apply]
      split
      · exact hunderscore
      · exact .inl (by simp)

/-- Escaping keeps words apart that show no escape themselves. -/
theorem apply_inj {escape : Escape} {a b : String} (ha : ¬ Marked a) (hb : ¬ Marked b)
    (h : escape.apply a = escape.apply b) : a = b := by
  -- only escapes with a number sign have one
  have hmixed : ∀ {x y : String}, ¬ Marked x → x ++ "_" ≠ "r#" ++ y := by
    intro x y hx heq
    have hsign : '#' ∈ (x ++ "_").toList := by rw [heq]; simp
    exact hx (.inl (by simpa using hsign))
  cases escape with
  | asIs => exact h
  | underscore => exact (String.append_left_inj "_").mp h
  | raw =>
      rw [apply, apply] at h
      split at h <;> split at h
      · exact (String.append_left_inj "_").mp h
      · exact (hmixed ha h).elim
      · exact (hmixed hb h.symm).elim
      · exact (String.append_right_inj "r#").mp h

theorem hasWord_apply (escape : Escape) {text : String} (h : HasWord text) :
    HasWord (escape.apply text) := by
  obtain ⟨c, hc, hword⟩ := h
  refine ⟨c, ?_, hword⟩
  cases escape with
  | asIs => exact hc
  | underscore => simp [apply, hc]
  | raw =>
      rw [apply]
      split <;> simp [hc]

end Escape

/-! ## Spelled names -/

namespace Rules

/-- Names without a word are not reserved, and what is reserved can be told from its escape. -/
structure Careful (rules : Rules) : Prop where
  hasWord : ∀ word ∈ rules.reserved, HasWord word
  unmarked : ∀ word ∈ rules.reserved, ¬ Marked word
  escapes : rules.reserved ≠ [] → rules.escape ≠ .asIs

/-- The text itself, or its escape if it is reserved. -/
def sidestep (rules : Rules) (text : String) : String :=
  if text ∈ rules.reserved then rules.escape.apply text else text

theorem apply_eq (rules : Rules) (name : String) (role : Role) :
    rules.apply name role = rules.sidestep (rules.convert name role) := rfl

namespace Careful

variable {rules : Rules}

theorem marked_sidestep_iff (h : rules.Careful) {text : String} (htext : ¬ Marked text) :
    Marked (rules.sidestep text) ↔ text ∈ rules.reserved := by
  by_cases hmem : text ∈ rules.reserved
  · rw [sidestep, if_pos hmem]
    exact iff_of_true (Escape.marked_apply (h.escapes (List.ne_nil_of_mem hmem)) text) hmem
  · rw [sidestep, if_neg hmem]
    exact iff_of_false htext hmem

/-- No word is reserved after its escape. -/
theorem sidestep_not_mem_reserved (h : rules.Careful) (text : String) :
    rules.sidestep text ∉ rules.reserved := by
  by_cases hmem : text ∈ rules.reserved
  · rw [sidestep, if_pos hmem]
    exact fun hescaped => h.unmarked _ hescaped
      (Escape.marked_apply (h.escapes (List.ne_nil_of_mem hmem)) text)
  · rwa [sidestep, if_neg hmem]

theorem sidestep_inj (h : rules.Careful) {a b : String} (ha : ¬ Marked a) (hb : ¬ Marked b) :
    rules.sidestep a = rules.sidestep b ↔ a = b := by
  refine ⟨fun heq => ?_, fun heq => by rw [heq]⟩
  have hmem : a ∈ rules.reserved ↔ b ∈ rules.reserved := by
    rw [← h.marked_sidestep_iff ha, heq, h.marked_sidestep_iff hb]
  by_cases hb' : b ∈ rules.reserved
  · rw [sidestep, sidestep, if_pos (hmem.mpr hb'), if_pos hb'] at heq
    exact Escape.apply_inj ha hb heq
  · rwa [sidestep, sidestep, if_neg (mt hmem.mp hb'), if_neg hb'] at heq

theorem apply_of_not_hasWord (h : rules.Careful) {name : String} (hname : ¬ HasWord name)
    (role : Role) : rules.apply name role = name := by
  rw [apply_eq, convert_of_not_hasWord rules hname, sidestep,
    if_neg fun hmem => hname (h.hasWord name hmem)]

/-- The spelling of a name has a word exactly if the name has one. -/
theorem hasWord_apply_iff (h : rules.Careful) (name : String) (role : Role) :
    HasWord (rules.apply name role) ↔ HasWord name := by
  by_cases hname : HasWord name
  · have hconvert : HasWord (rules.convert name role) := by
      obtain ⟨c, cs, hcs, hc⟩ := ((rules.caseFor role).isName_convert hname).exists_cons
      rw [rules.convert_of_hasWord hname]
      exact ⟨c, by simp [hcs], hc⟩
    refine iff_of_true ?_ hname
    rw [apply_eq, sidestep]
    split
    · exact rules.escape.hasWord_apply hconvert
    · exact hconvert
  · rw [h.apply_of_not_hasWord hname]

/-- Names with words are spelled alike exactly if their style makes the same of them. -/
theorem apply_eq_apply_iff_convert (h : rules.Careful) {a b : String} (ha : HasWord a)
    (hb : HasWord b) (role : Role) : rules.apply a role = rules.apply b role ↔
      (rules.caseFor role).convert a = (rules.caseFor role).convert b := by
  rw [apply_eq, apply_eq, rules.convert_of_hasWord ha, rules.convert_of_hasWord hb]
  exact h.sidestep_inj ((rules.caseFor role).not_marked_convert a)
    ((rules.caseFor role).not_marked_convert b)

end Careful

end Rules

theorem Host.careful (host : Host) : host.rules.Careful := by
  cases host with
  | rust => exact ⟨by decide +kernel, by decide +kernel, fun _ => by decide⟩
  | c => exact ⟨by decide +kernel, by decide +kernel, fun _ => by decide⟩
  | llvm => exact ⟨nofun, nofun, fun h => (h rfl).elim⟩

/-- Two names are spelled alike exactly if both have words and their style makes the same of them,
or if neither has a word and they are the same name. For a style with underscores this means the
same words but for the case of letters. No spelling is a reserved word. -/
theorem apply_eq_apply_iff (host : Host) (role : Role) (a b : String) :
    (host.rules.apply a role = host.rules.apply b role ↔
      wordsOf a ≠ [] ∧ wordsOf b ≠ [] ∧
        (host.rules.caseFor role).convert a = (host.rules.caseFor role).convert b ∨
      wordsOf a = [] ∧ wordsOf b = [] ∧ a = b) ∧
    (host.rules.caseFor role ≠ .camel →
      ((host.rules.caseFor role).convert a = (host.rules.caseFor role).convert b ↔
        (wordsOf a).map String.toLower = (wordsOf b).map String.toLower)) ∧
    host.rules.apply a role ∉ host.rules.reserved := by
  have hcareful := host.careful
  refine ⟨?_, fun h => CaseStyle.convert_eq_convert_iff h,
    hcareful.sidestep_not_mem_reserved _⟩
  have hsame (heq : host.rules.apply a role = host.rules.apply b role) :
      HasWord a ↔ HasWord b := by
    rw [← hcareful.hasWord_apply_iff a role, heq, hcareful.hasWord_apply_iff b role]
  simp only [ne_eq, wordsOf_eq_nil_iff, not_not]
  by_cases ha : HasWord a <;> by_cases hb : HasWord b
  · rw [hcareful.apply_eq_apply_iff_convert ha hb]
    simp [ha, hb]
  · exact iff_of_false (fun heq => hb ((hsame heq).mp ha)) (by simp [ha, hb])
  · exact iff_of_false (fun heq => ha ((hsame heq).mpr hb)) (by simp [ha, hb])
  · rw [hcareful.apply_of_not_hasWord ha, hcareful.apply_of_not_hasWord hb]
    simp [ha, hb]

end HostDecl
