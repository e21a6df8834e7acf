import HostDecl.Name.Rules

/-!
# Which characters a spelling has

A style writes nothing but letters, digits and underscores (`CaseStyle.isIdentChar_convert`), and
of a name that holds a letter or a digit it makes one that starts with one
(`CaseStyle.isName_convert`); of any other name it makes nothing.
-/

namespace HostDecl

/-! ## Word characters -/

theorem isWordChar_lt {c : Char} (h : isWordChar c = true) : c.toNat < 123 := by
  have hcode : ∀ {n : UInt32}, c.val ≤ n → n.toNat < 123 → c.toNat < 123 :=
    fun hle hlt => Nat.lt_of_le_of_lt (UInt32.le_iff_toNat_le.mp hle) hlt
  rw [isWordChar, Bool.or_eq_true, Bool.or_eq_true] at h
  rcases h with (h | h) | h
  · exact hcode (of_decide_eq_true h).2 (by decide)
  · exact hcode (of_decide_eq_true (Bool.and_eq_true_iff.mp h).2) (by decide)
  · exact hcode (of_decide_eq_true (Bool.and_eq_true_iff.mp h).2) (by decide)

/-- What holds of all word characters can be checked one by one. -/
theorem forall_isWordChar {P : Char → Prop}
    (h : ∀ n < 123, isWordChar (Char.ofNat n) = true → P (Char.ofNat n)) {c : Char}
    (hc : isWordChar c = true) : P c := by
  have := h c.toNat (isWordChar_lt hc)
  rw [Char.ofNat_toNat] at this
  exact this hc

theorem isWordChar_of_isUpper {c : Char} (h : c.isUpper = true) : isWordChar c = true := by
  simp [isWordChar, h]

theorem isWordChar_of_isLower {c : Char} (h : c.isLower = true) : isWordChar c = true := by
  simp [isWordChar, h]

theorem isWordChar_of_isDigit {c : Char} (h : c.isDigit = true) : isWordChar c = true := by
  simp [isWordChar, h]

theorem isWordChar_toUpper {c : Char} (h : isWordChar c = true) : isWordChar c.toUpper = true :=
  forall_isWordChar (P := fun c => isWordChar c.toUpper = true) (by decide) h

theorem isWordChar_toLower {c : Char} (h : isWordChar c = true) : isWordChar c.toLower = true :=
  forall_isWordChar (P := fun c => isWordChar c.toLower = true) (by decide) h

theorem isDigit_toUpper_eq {c : Char} (h : isWordChar c = true) : c.toUpper.isDigit = c.isDigit :=
  forall_isWordChar (P := fun c => c.toUpper.isDigit = c.isDigit) (by decide) h

theorem isDigit_toLower_eq {c : Char} (h : isWordChar c = true) : c.toLower.isDigit = c.isDigit :=
  forall_isWordChar (P := fun c => c.toLower.isDigit = c.isDigit) (by decide) h

/-! ## Words -/

theorem isWordChar_takeRuns {p q : Char → Bool} (hp : ∀ c, p c = true → isWordChar c = true)
    (hq : ∀ c, q c = true → isWordChar c = true) (cs : List Char) :
    ∀ c ∈ (takeRuns p q cs).1, isWordChar c = true := by
  intro c hc
  rcases List.mem_append.mp hc with hc | hc
  · exact hp c (List.all_eq_true.mp List.all_takeWhile c hc)
  · exact hq c (List.all_eq_true.mp List.all_takeWhile c hc)

theorem isWordChar_firstWord {c : Char} (hc : isWordChar c = true) (cs : List Char) :
    ∀ x ∈ (firstWord c cs).1, isWordChar x = true := by
  have hupper := fun x => isWordChar_of_isUpper (c := x)
  have hlower := fun x => isWordChar_of_isLower (c := x)
  have hdigit := fun x => isWordChar_of_isDigit (c := x)
  unfold firstWord
  dsimp only
  split
  · split
    · split
      · exact List.forall_mem_cons.mpr ⟨hc, isWordChar_takeRuns hlower hdigit _⟩
      · refine List.forall_mem_cons.mpr ⟨hc, fun x hx => ?_⟩
        exact hupper x (List.all_eq_true.mp List.all_takeWhile x (List.dropLast_subset _ hx))
    · exact List.forall_mem_cons.mpr ⟨hc, isWordChar_takeRuns hupper hdigit _⟩
  · split
    · exact List.forall_mem_cons.mpr ⟨hc, isWordChar_takeRuns hlower hdigit _⟩
    · exact List.forall_mem_cons.mpr ⟨hc, isWordChar_takeRuns hdigit hlower _⟩

theorem isWordChar_words (cs : List Char) :
    ∀ w ∈ words cs, w ≠ [] ∧ ∀ c ∈ w, isWordChar c = true := by
  fun_induction words cs with
  | case1 => simp
  | case2 c cs h ih =>
      exact List.forall_mem_cons.mpr ⟨⟨firstWord_ne_nil c cs, isWordChar_firstWord h cs⟩, ih⟩
  | case3 c cs h ih => exact ih

theorem words_ne_nil {cs : List Char} (h : ∃ c ∈ cs, isWordChar c = true) : words cs ≠ [] := by
  fun_induction words cs with
  | case1 => simp at h
  | case2 c cs hc ih => simp
  | case3 c cs hc ih =>
      obtain ⟨x, hx, hword⟩ := h
      rcases List.mem_cons.mp hx with rfl | hx
      · exact (hc hword).elim
      · exact ih ⟨x, hx, hword⟩

theorem words_eq_nil {cs : List Char} (h : ∀ c ∈ cs, isWordChar c = false) : words cs = [] := by
  fun_induction words cs with
  | case1 => rfl
  | case2 c cs hc ih =>
      rw [(List.forall_mem_cons.mp h).1] at hc
      cases hc
  | case3 c cs hc ih => exact ih (List.forall_mem_cons.mp h).2

/-- The first word starts with the first letter or digit of the text. -/
theorem words_front {cs : List Char} {c : Char} (h : cs.find? isWordChar = some c) :
    ∃ w ws, words cs = (c :: w) :: ws := by
  fun_induction words cs with
  | case1 => cases h
  | case2 x cs hx ih =>
      rw [List.find?_cons_of_pos hx] at h
      obtain rfl := Option.some.inj h
      obtain ⟨y, w, hw⟩ := List.exists_cons_of_ne_nil (firstWord_ne_nil x cs)
      have happ := firstWord_append x cs
      rw [hw, List.cons_append] at happ
      exact ⟨w, _, by rw [hw, (List.cons.inj happ).1]⟩
  | case3 x cs hx ih =>
      rw [List.find?_cons_of_neg hx] at h
      exact ih h

/-- The name has a letter or a digit in it. -/
def HasWord (name : String) : Prop :=
  ∃ c ∈ name.toList, isWordChar c = true

instance (name : String) : Decidable (HasWord name) :=
  List.decidableBEx _ name.toList

theorem not_hasWord_iff {name : String} :
    ¬ HasWord name ↔ ∀ c ∈ name.toList, isWordChar c = false := by
  simp [HasWord]

/-! ## Styles -/

/-- Identifiers are made of these characters. -/
def isIdentChar (c : Char) : Bool :=
  isWordChar c || c == '_'

/-- All characters can stand in identifiers. -/
def IsIdent (name : List Char) : Prop :=
  ∀ c ∈ name, isIdentChar c = true

instance (name : List Char) : Decidable (IsIdent name) :=
  List.decidableBAll _ name

/-- An identifier that starts with a letter or a digit. -/
structure IsName (name : List Char) : Prop where
  ident : IsIdent name
  front : ∃ c ∈ name.head?, isWordChar c = true

instance (name : List Char) : Decidable (IsName name) :=
  decidable_of_iff (IsIdent name ∧ name.head?.any isWordChar = true)
    ⟨fun h => ⟨h.1, (Option.any_eq_true _ _).mp h.2⟩,
      fun h => ⟨h.1, (Option.any_eq_true _ _).mpr h.2⟩⟩

theorem IsName.exists_cons {name : List Char} (h : IsName name) :
    ∃ c cs, name = c :: cs ∧ isWordChar c = true := by
  obtain ⟨c, hc, hword⟩ := h.front
  obtain ⟨cs, hcs⟩ := List.head?_eq_some_iff.mp hc
  exact ⟨c, cs, hcs, hword⟩

theorem IsName.ne_nil {name : List Char} (h : IsName name) : name ≠ [] := by
  obtain ⟨c, cs, rfl, -⟩ := h.exists_cons
  exact List.cons_ne_nil c cs

theorem isIdentChar_of_isWordChar {c : Char} (h : isWordChar c = true) : isIdentChar c = true := by
  simp [isIdentChar, h]

theorem isWordChar_capitalise {w : List Char} (h : ∀ c ∈ w, isWordChar c = true) :
    ∀ c ∈ capitalise w, isWordChar c = true := by
  cases w with
  | nil => simp [capitalise]
  | cons x w =>
      obtain ⟨hx, hw⟩ := List.forall_mem_cons.mp h
      refine List.forall_mem_cons.mpr ⟨isWordChar_toUpper hx, List.forall_mem_map.mpr ?_⟩
      exact fun c hc => isWordChar_toLower (hw c hc)

/-- What holds of the underscore and of all characters of some words holds of the words joined. -/
theorem forall_mem_underscored {P : Char → Prop} {ws : List (List Char)} (hsep : P '_')
    (h : ∀ w ∈ ws, ∀ c ∈ w, P c) : ∀ c ∈ underscored ws, P c := by
  fun_induction underscored ws with
  | case1 => simp
  | case2 w => exact h w (by simp)
  | case3 w ws _ ih =>
      obtain ⟨hw, hws⟩ := List.forall_mem_cons.mp h
      exact List.forall_mem_append.mpr ⟨hw, List.forall_mem_cons.mpr ⟨hsep, ih hws⟩⟩

theorem isIdentChar_underscored {ws : List (List Char)}
    (h : ∀ w ∈ ws, ∀ c ∈ w, isWordChar c = true) : ∀ c ∈ underscored ws, isIdentChar c = true :=
  forall_mem_underscored (by decide) fun w hw c hc => isIdentChar_of_isWordChar (h w hw c hc)

/-- Words joined in two parts are joined. -/
theorem underscored_append {ws ws' : List (List Char)} (h : ws ≠ []) (h' : ws' ≠ []) :
    underscored (ws ++ ws') = underscored ws ++ '_' :: underscored ws' := by
  fun_induction underscored ws with
  | case1 => exact (h rfl).elim
  | case2 w =>
      obtain ⟨w', ws', rfl⟩ := List.exists_cons_of_ne_nil h'
      rfl
  | case3 w ws hmore ih =>
      obtain ⟨w', ws, rfl⟩ := List.exists_cons_of_ne_nil hmore
      have hjoin : underscored (w :: w' :: ws ++ ws') = w ++ '_' :: underscored (w' :: ws ++ ws') :=
        rfl
      rw [hjoin, ih hmore, List.append_assoc, List.cons_append]

/-- The first word comes first. -/
theorem head?_underscored {w : List Char} (hw : w ≠ []) (ws : List (List Char)) :
    (underscored (w :: ws)).head? = w.head? := by
  obtain ⟨c, cs, rfl⟩ := List.exists_cons_of_ne_nil hw
  cases ws with
  | nil => rfl
  | cons w ws => rfl

namespace CaseStyle

theorem isIdentChar_convert (style : CaseStyle) (name : String) :
    ∀ c ∈ (style.convert name).toList, isIdentChar c = true := by
  have hwords := isWordChar_words name.toList
  rw [convert, String.toList_ofList]
  cases style with
  | camel =>
      intro c hc
      obtain ⟨w, hw, hc⟩ := List.mem_flatMap.mp hc
      exact isIdentChar_of_isWordChar (isWordChar_capitalise (hwords w hw).2 c hc)
  | snake =>
      refine isIdentChar_underscored (List.forall_mem_map.mpr fun w hw => ?_)
      exact List.forall_mem_map.mpr fun c hc => isWordChar_toLower ((hwords w hw).2 c hc)
  | shouty =>
      refine isIdentChar_underscored (List.forall_mem_map.mpr fun w hw => ?_)
      exact List.forall_mem_map.mpr fun c hc => isWordChar_toUpper ((hwords w hw).2 c hc)

/-- A style writes the first letter or digit of a name first, in one case or the other. -/
theorem front_convert (style : CaseStyle) {name : String} {c : Char}
    (h : name.toList.find? isWordChar = some c) :
    ∃ d ∈ (style.convert name).toList.head?, d = c.toUpper ∨ d = c.toLower := by
  obtain ⟨w, ws, hw⟩ := words_front h
  rw [convert, String.toList_ofList, hw]
  cases style with
  | camel => exact ⟨c.toUpper, rfl, .inl rfl⟩
  | snake =>
      rw [join, List.map_cons, head?_underscored (by simp)]
      exact ⟨c.toLower, rfl, .inr rfl⟩
  | shouty =>
      rw [join, List.map_cons, head?_underscored (by simp)]
      exact ⟨c.toUpper, rfl, .inl rfl⟩

/-- In every style, a name with a letter or a digit is a name that starts with one. -/
theorem isName_convert (style : CaseStyle) {name : String} (h : HasWord name) :
    IsName (style.convert name).toList := by
  refine ⟨isIdentChar_convert style name, ?_⟩
  obtain ⟨c, hc⟩ := Option.isSome_iff_exists.mp (List.find?_isSome.mpr h)
  obtain ⟨d, hd, rfl | rfl⟩ := style.front_convert hc
  · exact ⟨_, hd, isWordChar_toUpper (List.find?_some hc)⟩
  · exact ⟨_, hd, isWordChar_toLower (List.find?_some hc)⟩

theorem convert_eq_empty (style : CaseStyle) {name : String} (h : ¬ HasWord name) :
    style.convert name = "" := by
  rw [convert, words_eq_nil (not_hasWord_iff.mp h)]
  cases style <;> rfl

end CaseStyle

namespace Rules

theorem convert_of_hasWord (rules : Rules) {name : String} (h : HasWord name) (role : Role) :
    rules.convert name role = (rules.caseFor role).convert name := by
  refine if_neg fun hempty => ?_
  have hname := (rules.caseFor role).isName_convert h
  rw [String.isEmpty_iff.mp hempty] at hname
  exact hname.ne_nil rfl

theorem convert_of_not_hasWord (rules : Rules) {name : String} (h : ¬ HasWord name) (role : Role) :
    rules.convert name role = name := by
  rw [convert, CaseStyle.convert_eq_empty _ h]
  rfl

end Rules

end HostDecl
