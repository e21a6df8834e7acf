import HostDecl.Proofs.Name.Boundaries

/-!
# Names spelled again

What a style makes of a name can be read as a name again. A character that words are not made of
has the words in front of it and the words behind it (`words_append`), so a joined text has the
words of its words (`words_underscored`), and only single words are left to look at. Each is a run
of one class of characters before a run of another one (`shaped_words`).

In lower case such a word stays one word. So the words of a name in `snake_case` are those of the
name in lower case (`words_snake`), and every style makes the same of both. Capitals keep less: in
them a word that begins with digits ends before its letters (`words_raised_of_numbered`), and this
is the only kind of word that does not come back (`snake_normal_form`).
-/

namespace HostDecl

/-! ## Words on both sides of a separator -/

section

variable {x : Char} (hx : isWordChar x = false)

include hx

theorem startsLower_append (front back : List Char) :
    startsLower (front ++ x :: back) = startsLower front := by
  cases front with
  | nil =>
      cases hlower : x.isLower with
      | false => exact hlower
      | true => rw [isWordChar_of_isLower hlower] at hx; cases hx
  | cons c front => rfl

theorem cutWord_append_cons (first c : Char) (cs back : List Char) :
    cutWord first c (cs ++ x :: back) =
      ((cutWord first c cs).1, (cutWord first c cs).2 ++ x :: back) := by
  induction cs generalizing c with
  | nil => exact cutWord_stop fun hword => by rw [hx] at hword; cases hword
  | cons d cs ih =>
      have hbreaks : breaks first c d (cs ++ x :: back) = breaks first c d cs := by
        rw [breaks, breaks, startsLower_append hx]
      rw [List.cons_append, cutWord, cutWord, hbreaks]
      split
      · rw [ih]
      · rfl

/-- A character that words are not made of has words on both sides. -/
theorem words_append (front back : List Char) :
    words (front ++ x :: back) = words front ++ words back := by
  fun_induction words front with
  | case1 => rw [List.nil_append, words, hx, if_neg Bool.false_ne_true, List.nil_append]
  | case2 c cs hc ih =>
      have hfirst : firstWord c (cs ++ x :: back) =
          ((firstWord c cs).1, (firstWord c cs).2 ++ x :: back) := by
        rw [firstWord_eq hc, firstWord_eq hc, cutWord_append_cons hx]
      rw [List.cons_append, words, if_pos hc, hfirst, ih, List.cons_append]
  | case3 c cs hc ih => rw [List.cons_append, words, if_neg hc, ih]

end

/-- A joined text has the words of its words. -/
theorem words_underscored (ws : List (List Char)) : words (underscored ws) = ws.flatMap words := by
  fun_induction underscored ws with
  | case1 => simp [words]
  | case2 w => simp
  | case3 w ws _ ih => rw [words_append (by decide), ih, List.flatMap_cons]

/-! ## The shape of a word -/

section

variable {c : Char}

theorem isAlpha_of_isUpper (h : c.isUpper = true) : c.isAlpha = true := by
  rw [isAlpha_eq, h, Bool.true_or]

theorem isAlpha_of_isLower (h : c.isLower = true) : c.isAlpha = true := by
  rw [isAlpha_eq, h, Bool.or_true]

theorem isAlpha_of_isDigit (h : c.isDigit = true) : c.isAlpha = false := by
  rw [isAlpha_eq, (classes_of_isDigit h).1, (classes_of_isDigit h).2, Bool.false_or]

theorem isWordChar_of_isAlpha (h : c.isAlpha = true) : isWordChar c = true := by
  rw [isWordChar, ← isAlpha_eq, h, Bool.true_or]

end

/-- A first character of the class `p` with more of them behind it, and then a run of the class
`q`. -/
def Runs (p q : Char → Bool) (w : List Char) : Prop :=
  ∃ c u v, w = c :: (u ++ v) ∧ p c = true ∧ (∀ x ∈ u, p x = true) ∧ ∀ x ∈ v, q x = true

theorem runs_takeRuns {p q p' q' : Char → Bool} {c : Char} (hc : p' c = true)
    (hp : ∀ x, p x = true → p' x = true) (hq : ∀ x, q x = true → q' x = true) (cs : List Char) :
    Runs p' q' (c :: (takeRuns p q cs).1) :=
  ⟨c, _, _, rfl, hc, fun x hx => hp x (List.all_eq_true.mp List.all_takeWhile x hx),
    fun x hx => hq x (List.all_eq_true.mp List.all_takeWhile x hx)⟩

theorem Runs.forall_mem {p q : Char → Bool} {P : Char → Prop} {w : List Char} (h : Runs p q w)
    (hp : ∀ x, p x = true → P x) (hq : ∀ x, q x = true → P x) : ∀ x ∈ w, P x := by
  obtain ⟨c, u, v, rfl, hc, hu, hv⟩ := h
  refine List.forall_mem_cons.mpr ⟨hp c hc, List.forall_mem_append.mpr ⟨?_, ?_⟩⟩
  · exact fun x hx => hp x (hu x hx)
  · exact fun x hx => hq x (hv x hx)

theorem Runs.map {p p' q q' : Char → Bool} {f : Char → Char} {w : List Char} (h : Runs p q w)
    (hp : ∀ x, p x = true → p' (f x) = true) (hq : ∀ x, q x = true → q' (f x) = true) :
    Runs p' q' (w.map f) := by
  obtain ⟨c, u, v, rfl, hc, hu, hv⟩ := h
  refine ⟨f c, u.map f, v.map f, by rw [List.map_cons, List.map_append], hp c hc, ?_, ?_⟩
  · exact List.forall_mem_map.mpr fun x hx => hp x (hu x hx)
  · exact List.forall_mem_map.mpr fun x hx => hq x (hv x hx)

/-- The shapes of words: letters and then digits, or digits and then lower-case letters. -/
def Shaped (w : List Char) : Prop :=
  Runs Char.isAlpha Char.isDigit w ∨ Runs Char.isDigit Char.isLower w

theorem Shaped.isWordChar {w : List Char} (h : Shaped w) : ∀ c ∈ w, isWordChar c = true := by
  rcases h with h | h
  · exact h.forall_mem (fun _ => isWordChar_of_isAlpha) fun _ => isWordChar_of_isDigit
  · exact h.forall_mem (fun _ => isWordChar_of_isDigit) fun _ => isWordChar_of_isLower

theorem shaped_firstWord {c : Char} (hc : isWordChar c = true) (cs : List Char) :
    Shaped (firstWord c cs).1 := by
  have hupper := fun x => isAlpha_of_isUpper (c := x)
  have hlower := fun x => isAlpha_of_isLower (c := x)
  unfold firstWord
  dsimp only
  split
  · rename_i hc
    left
    split
    · split
      · exact runs_takeRuns (hupper c hc) hlower (fun _ h => h) _
      · -- an acronym, which has no digits
        refine ⟨c, (cs.takeWhile Char.isUpper).dropLast, [], by rw [List.append_nil], hupper c hc,
          fun x hx => hupper x ?_, nofun⟩
        exact List.all_eq_true.mp List.all_takeWhile x (List.dropLast_subset _ hx)
    · exact runs_takeRuns (hupper c hc) hupper (fun _ h => h) cs
  · split
    · rename_i hc
      exact .inl (runs_takeRuns (hlower c hc) hlower (fun _ h => h) cs)
    · rename_i hnotUpper hnotLower
      have hdigit : c.isDigit = true := by simpa [hnotUpper, hnotLower] using isWordChar_cases hc
      exact .inr (runs_takeRuns hdigit (fun _ h => h) (fun _ h => h) cs)

theorem shaped_words (cs : List Char) : ∀ w ∈ words cs, Shaped w := by
  fun_induction words cs with
  | case1 => simp
  | case2 c cs hc ih => exact List.forall_mem_cons.mpr ⟨shaped_firstWord hc cs, ih⟩
  | case3 c cs hc ih => exact ih

/-! ## Texts of one word -/

/-- Two runs are taken off the front of a text where the second one ends. -/
theorem takeRuns_append_append {p q : Char → Bool} {u v rest : List Char}
    (hu : ∀ x ∈ u, p x = true) (hv : ∀ x ∈ v, q x = true)
    (hdisjoint : ∀ x, q x = true → p x = false)
    (hrest : ∀ x ∈ rest.head?, p x = false ∧ q x = false) :
    takeRuns p q (u ++ (v ++ rest)) = (u ++ v, rest) := by
  have hstop : ∀ {r : Char → Bool} {cs : List Char}, (∀ x ∈ cs.head?, r x = false) →
      cs.takeWhile r = [] ∧ cs.dropWhile r = cs := by
    intro r cs h
    cases cs with
    | nil => exact ⟨rfl, rfl⟩
    | cons x cs => simp [h x rfl]
  have hfront : ∀ x ∈ (v ++ rest).head?, p x = false := by
    cases v with
    | nil => exact fun x hx => (hrest x hx).1
    | cons y v =>
        rintro x ⟨⟩
        exact hdisjoint y (hv y List.mem_cons_self)
  obtain ⟨htake, hdrop⟩ := hstop hfront
  obtain ⟨htake', hdrop'⟩ := hstop fun x hx => (hrest x hx).2
  rw [takeRuns, List.takeWhile_append_of_pos hu, List.dropWhile_append_of_pos hu, htake, hdrop,
    List.takeWhile_append_of_pos hv, List.dropWhile_append_of_pos hv, htake', hdrop',
    List.append_nil, List.append_nil]

theorem firstWord_of_isLower {c : Char} (hc : c.isLower = true) (cs : List Char) :
    firstWord c cs = (c :: (takeRuns Char.isLower Char.isDigit cs).1,
      (takeRuns Char.isLower Char.isDigit cs).2) := by
  simp [firstWord, hc, classes_of_isLower hc]

theorem firstWord_of_isDigit {c : Char} (hc : c.isDigit = true) (cs : List Char) :
    firstWord c cs = (c :: (takeRuns Char.isDigit Char.isLower cs).1,
      (takeRuns Char.isDigit Char.isLower cs).2) := by
  simp [firstWord, classes_of_isDigit hc]

theorem firstWord_of_isUpper {c : Char} (hc : c.isUpper = true) {cs : List Char}
    (hcs : startsLower (cs.dropWhile Char.isUpper) = false) :
    firstWord c cs = (c :: (takeRuns Char.isUpper Char.isDigit cs).1,
      (takeRuns Char.isUpper Char.isDigit cs).2) := by
  simp [firstWord, hc, hcs]

section

variable {w : List Char}

/-- Two runs are one word, if a word that starts in the first class is taken off as two runs. -/
theorem words_of_runs {p q : Char → Bool} (h : Runs p q w)
    (hp : ∀ x, p x = true → isWordChar x = true) (hdisjoint : ∀ x, q x = true → p x = false)
    (hfirst : ∀ c u v, p c = true → (∀ x ∈ u, p x = true) → (∀ x ∈ v, q x = true) →
      firstWord c (u ++ v) = (c :: (takeRuns p q (u ++ v)).1, (takeRuns p q (u ++ v)).2)) :
    words w = [w] := by
  obtain ⟨c, u, v, rfl, hc, hu, hv⟩ := h
  have hruns : takeRuns p q (u ++ (v ++ [])) = (u ++ v, []) :=
    takeRuns_append_append hu hv hdisjoint nofun
  rw [List.append_nil] at hruns
  rw [words, if_pos (hp c hc), hfirst c u v hc hu hv, hruns, words]

theorem words_of_lower (h : Runs Char.isLower Char.isDigit w) : words w = [w] :=
  words_of_runs h (fun _ => isWordChar_of_isLower) (fun _ hx => (classes_of_isDigit hx).2)
    fun _ _ _ hc _ _ => firstWord_of_isLower hc _

theorem words_of_digits (h : Runs Char.isDigit Char.isLower w) : words w = [w] :=
  words_of_runs h (fun _ => isWordChar_of_isDigit) (fun _ hx => (classes_of_isLower hx).2)
    fun _ _ _ hc _ _ => firstWord_of_isDigit hc _

theorem words_of_upper (h : Runs Char.isUpper Char.isDigit w) : words w = [w] := by
  refine words_of_runs h (fun _ => isWordChar_of_isUpper) (fun _ hx => (classes_of_isDigit hx).1)
    fun c u v hc hu hv => firstWord_of_isUpper hc ?_
  rw [List.dropWhile_append_of_pos hu]
  cases v with
  | nil => rfl
  | cons d v =>
      have hd := classes_of_isDigit (hv d List.mem_cons_self)
      rw [List.dropWhile_cons_of_neg (by simp [hd])]
      exact hd.2

end

/-- Digits do not keep the capitals behind them. -/
theorem words_of_digits_upper {c : Char} {u v : List Char} (hc : c.isDigit = true)
    (hu : ∀ x ∈ u, x.isDigit = true) (hv : ∀ x ∈ v, x.isUpper = true) :
    words (c :: (u ++ v)) = (c :: u) :: words v := by
  have hruns : takeRuns Char.isDigit Char.isLower (u ++ ([] ++ v)) = (u ++ [], v) := by
    refine takeRuns_append_append hu nofun (fun x hx => (classes_of_isLower hx).2) fun x hx => ?_
    have hx := classes_of_isUpper (hv x (List.mem_of_mem_head? hx))
    exact ⟨hx.2, hx.1⟩
  rw [List.nil_append, List.append_nil] at hruns
  rw [words, if_pos (isWordChar_of_isDigit hc), firstWord_of_isDigit hc, hruns]

/-! ## Letter cases -/

section

variable {c : Char}

theorem toLower_toLower (h : isWordChar c = true) : c.toLower.toLower = c.toLower :=
  forall_isWordChar (P := fun c => c.toLower.toLower = c.toLower) (by decide) h

theorem toLower_toUpper (h : isWordChar c = true) : c.toUpper.toLower = c.toLower :=
  forall_isWordChar (P := fun c => c.toUpper.toLower = c.toLower) (by decide) h

theorem toUpper_toLower (h : isWordChar c = true) : c.toLower.toUpper = c.toUpper :=
  forall_isWordChar (P := fun c => c.toLower.toUpper = c.toUpper) (by decide) h

theorem isLower_toLower (h : c.isAlpha = true) : c.toLower.isLower = true :=
  forall_isWordChar (P := fun c => c.isAlpha = true → c.toLower.isLower = true) (by decide)
    (isWordChar_of_isAlpha h) h

theorem isUpper_toUpper (h : c.isAlpha = true) : c.toUpper.isUpper = true :=
  forall_isWordChar (P := fun c => c.isAlpha = true → c.toUpper.isUpper = true) (by decide)
    (isWordChar_of_isAlpha h) h

theorem isLower_toUpper (h : isWordChar c = true) : c.toUpper.isLower = false :=
  forall_isWordChar (P := fun c => c.toUpper.isLower = false) (by decide) h

theorem toLower_of_isDigit (h : c.isDigit = true) : c.toLower = c :=
  forall_isWordChar (P := fun c => c.isDigit = true → c.toLower = c) (by decide)
    (isWordChar_of_isDigit h) h

theorem toUpper_of_isDigit (h : c.isDigit = true) : c.toUpper = c :=
  forall_isWordChar (P := fun c => c.isDigit = true → c.toUpper = c) (by decide)
    (isWordChar_of_isDigit h) h

theorem isDigit_toLower (h : c.isDigit = true) : c.toLower.isDigit = true := by
  rwa [toLower_of_isDigit h]

theorem isDigit_toUpper (h : c.isDigit = true) : c.toUpper.isDigit = true := by
  rwa [toUpper_of_isDigit h]

end

/-- The word in lower case. -/
def lowered (w : List Char) : List Char :=
  w.map Char.toLower

/-- The word in capitals. -/
def raised (w : List Char) : List Char :=
  w.map Char.toUpper

theorem toLower_ofList (w : List Char) : (String.ofList w).toLower = String.ofList (lowered w) := by
  have hmap : (String.ofList w).toLower = (String.ofList w).map Char.toLower := rfl
  rw [← String.toList_inj, hmap, String.toList_map, String.toList_ofList, String.toList_ofList,
    lowered]

section

variable {w : List Char} (h : ∀ c ∈ w, isWordChar c = true)

include h

theorem lowered_lowered : lowered (lowered w) = lowered w := by
  rw [lowered, lowered, List.map_map]
  exact List.map_congr_left fun c hc => toLower_toLower (h c hc)

theorem lowered_raised : lowered (raised w) = lowered w := by
  rw [lowered, raised, List.map_map]
  exact List.map_congr_left fun c hc => toLower_toUpper (h c hc)

theorem raised_lowered : raised (lowered w) = raised w := by
  rw [raised, lowered, List.map_map]
  exact List.map_congr_left fun c hc => toUpper_toLower (h c hc)

theorem capitalise_lowered : capitalise (lowered w) = capitalise w := by
  cases w with
  | nil => rfl
  | cons c w =>
      obtain ⟨hc, hw⟩ := List.forall_mem_cons.mp h
      exact congrArg₂ List.cons (toUpper_toLower hc) (lowered_lowered hw)

end

/-- A style makes the same of words and of the words in lower case. -/
theorem CaseStyle.join_lowered (style : CaseStyle) {ws : List (List Char)}
    (h : ∀ w ∈ ws, ∀ c ∈ w, isWordChar c = true) : style.join (ws.map lowered) = style.join ws := by
  cases style with
  | camel =>
      rw [join, join, List.flatMap_map]
      exact List.flatMap_congr fun w hw => capitalise_lowered (h w hw)
  | snake =>
      rw [join, join, List.map_map]
      exact congrArg underscored (List.map_congr_left fun w hw => lowered_lowered (h w hw))
  | shouty =>
      rw [join, join, List.map_map]
      exact congrArg underscored (List.map_congr_left fun w hw => raised_lowered (h w hw))

/-! ## Words in lower case and in capitals -/

/-- The word begins with a digit and has a letter in it. -/
def Numbered (w : List Char) : Prop :=
  (∃ c ∈ w.head?, c.isDigit = true) ∧ ∃ c ∈ w, c.isAlpha = true

instance (w : List Char) : Decidable (Numbered w) :=
  decidable_of_iff (w.head?.any Char.isDigit = true ∧ w.any Char.isAlpha = true)
    (and_congr (Option.any_eq_true _ _) List.any_eq_true)

section

variable {w : List Char}

theorem not_numbered (h : Runs Char.isAlpha Char.isDigit w) : ¬ Numbered w := by
  obtain ⟨c, u, v, rfl, hc, -⟩ := h
  rintro ⟨⟨d, hd, hdigit⟩, -⟩
  obtain rfl : c = d := Option.some.inj hd
  rw [isAlpha_of_isDigit hdigit] at hc
  cases hc

theorem numbered_iff {c : Char} {u v : List Char} (hc : c.isDigit = true)
    (hu : ∀ x ∈ u, x.isDigit = true) (hv : ∀ x ∈ v, x.isLower = true) :
    Numbered (c :: (u ++ v)) ↔ v ≠ [] := by
  constructor
  · rintro ⟨-, x, hx, halpha⟩ rfl
    rw [List.append_nil] at hx
    have hdigit : x.isDigit = true := by
      rcases List.mem_cons.mp hx with rfl | hx
      · exact hc
      · exact hu x hx
    rw [isAlpha_of_isDigit hdigit] at halpha
    cases halpha
  · intro hne
    obtain ⟨d, v, rfl⟩ := List.exists_cons_of_ne_nil hne
    exact ⟨⟨c, rfl, hc⟩, d, by simp, isAlpha_of_isLower (hv d List.mem_cons_self)⟩

theorem words_lowered (h : Shaped w) : words (lowered w) = [lowered w] := by
  rcases h with h | h
  · exact words_of_lower (h.map (fun _ => isLower_toLower) fun _ => isDigit_toLower)
  · exact words_of_digits (h.map (fun _ => isDigit_toLower) fun _ hx =>
      isLower_toLower (isAlpha_of_isLower hx))

theorem words_raised (h : Shaped w) (hw : ¬ Numbered w) : words (raised w) = [raised w] := by
  rcases h with h | ⟨c, u, v, rfl, hc, hu, hv⟩
  · exact words_of_upper (h.map (fun _ => isUpper_toUpper) fun _ => isDigit_toUpper)
  · obtain rfl : v = [] := not_not.mp (mt (numbered_iff hc hu hv).mpr hw)
    have hdigits : ∀ x ∈ raised u, x.isDigit = true :=
      List.forall_mem_map.mpr fun x hx => isDigit_toUpper (hu x hx)
    exact words_of_digits
      ⟨c.toUpper, raised u, [], by simp [raised], isDigit_toUpper hc, hdigits, nofun⟩

/-- In capitals, a word that begins with digits ends before its letters. -/
theorem words_raised_of_numbered (h : Shaped w) (hw : Numbered w) :
    ∃ u rest, words (raised w) = u :: rest ∧ u.length < w.length := by
  rcases h with h | ⟨c, u, v, rfl, hc, hu, hv⟩
  · exact (not_numbered h hw).elim
  · have hwords : words (raised (c :: (u ++ v))) = raised (c :: u) :: words (raised v) := by
      rw [raised, List.map_cons, List.map_append]
      exact words_of_digits_upper (isDigit_toUpper hc)
        (List.forall_mem_map.mpr fun x hx => isDigit_toUpper (hu x hx))
        (List.forall_mem_map.mpr fun x hx => isUpper_toUpper (isAlpha_of_isLower (hv x hx)))
    have hpos := List.length_pos_iff.mpr ((numbered_iff hc hu hv).mp hw)
    refine ⟨_, _, hwords, ?_⟩
    simp only [raised, List.length_map, List.length_cons, List.length_append]
    omega

/-- Words come back from capitals exactly if none of them begins with a digit and has a letter. -/
theorem lowered_words_raised_iff {ws : List (List Char)} (h : ∀ w ∈ ws, Shaped w) :
    (ws.flatMap fun w => words (raised w)).map lowered = ws.map lowered ↔
      ∀ w ∈ ws, ¬ Numbered w := by
  induction ws with
  | nil => simp
  | cons w ws ih =>
      obtain ⟨hw, hws⟩ := List.forall_mem_cons.mp h
      rw [List.flatMap_cons, List.forall_mem_cons, List.map_cons]
      by_cases hnum : Numbered w
      · -- its first piece is shorter than the word, so the lists differ in front already
        obtain ⟨u, rest, hwords, hlt⟩ := words_raised_of_numbered hw hnum
        refine iff_of_false (fun heq => ?_) fun hall => hall.1 hnum
        rw [hwords] at heq
        have hlen := congrArg List.length (List.cons.inj heq).1
        rw [lowered, lowered, List.length_map, List.length_map] at hlen
        omega
      · rw [words_raised hw hnum, List.singleton_append, List.map_cons,
          lowered_raised hw.isWordChar, List.cons.injEq, ih hws]
        simp [hnum]

end

/-! ## The spellings of a name -/

theorem words_snake (name : String) :
    words (CaseStyle.snake.convert name).toList = (words name.toList).map lowered := by
  calc words (CaseStyle.snake.convert name).toList
      = ((words name.toList).map lowered).flatMap words := by
        rw [CaseStyle.convert, String.toList_ofList]
        exact words_underscored _
    _ = (words name.toList).flatMap fun w => [lowered w] := by
        rw [List.flatMap_map]
        exact List.flatMap_congr fun w hw => words_lowered (shaped_words _ w hw)
    _ = (words name.toList).map lowered := List.flatMap_pure_eq_map lowered _

theorem words_shouty (name : String) : words (CaseStyle.shouty.convert name).toList =
    (words name.toList).flatMap fun w => words (raised w) := by
  rw [CaseStyle.convert, String.toList_ofList, CaseStyle.join, words_underscored, List.flatMap_map]
  rfl

/-- Every style makes the same of a name in `snake_case` as of the name. -/
theorem CaseStyle.convert_snake (style : CaseStyle) (name : String) :
    style.convert (CaseStyle.snake.convert name) = style.convert name := by
  have hchars := fun w hw => (shaped_words name.toList w hw).isWordChar
  rw [convert, words_snake, style.join_lowered hchars, convert]

theorem map_toLower_wordsOf (name : String) :
    (wordsOf name).map String.toLower = ((words name.toList).map lowered).map String.ofList := by
  rw [wordsOf, List.map_map, List.map_map]
  exact List.map_congr_left fun w _ => toLower_ofList w

/-- Two names have the same spelling in `snake_case` exactly if they have the same words but for the
case of letters. -/
theorem snake_eq_snake_iff {a b : String} :
    CaseStyle.snake.convert a = CaseStyle.snake.convert b ↔
      (words a.toList).map lowered = (words b.toList).map lowered := by
  constructor
  · intro h
    rw [← words_snake, ← words_snake, h]
  · intro h
    exact congrArg (fun ws => String.ofList (underscored ws)) h

/-- The words of a name in `snake_case` are those of the name in lower case. So each style makes the
same of it as of the name, and `snake_case` leaves it as it is. A name in `SHOUTY_SNAKE_CASE` comes
back exactly if no word of the name begins with a digit and has a letter in it. -/
theorem snake_normal_form (name : String) :
    wordsOf (CaseStyle.snake.convert name) = (wordsOf name).map String.toLower ∧
    (∀ style : CaseStyle, style.convert (CaseStyle.snake.convert name) = style.convert name) ∧
    (CaseStyle.snake.convert (CaseStyle.shouty.convert name) = CaseStyle.snake.convert name ↔
      ∀ w ∈ wordsOf name, ¬ Numbered w.toList) := by
  refine ⟨?_, fun style => style.convert_snake name, ?_⟩
  · rw [wordsOf, words_snake, map_toLower_wordsOf]
  · rw [snake_eq_snake_iff, words_shouty, lowered_words_raised_iff (shaped_words _), wordsOf,
      List.forall_mem_map]
    simp only [String.toList_ofList]

example : CaseStyle.snake.convert (CaseStyle.shouty.convert "point_3d") = "point_3_d" := by
  decide +kernel

end HostDecl
