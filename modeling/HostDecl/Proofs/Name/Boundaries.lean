import HostDecl.Proofs.Name.Spelling
import Mathlib.Data.List.Basic

/-!
# Where words end

Words are taken off the front of a name by their shape. The places where they end can be told from
close by: `breaks` looks at the two characters at the place, at the one behind them, and at the one
that the word starts with. `Divided` says that words are the pieces of a text between the places
where it breaks, and there is one list of words of which that holds (`wordsOf_eq_iff`).

`cutWord` goes on from character to character as long as the text does not break. It comes to the
same word as `firstWord` does by shape (`firstWord_eq`).
-/

namespace HostDecl

/-- A word that starts with `first` ends between the letters or digits `c` and `d`, before `rest`:
at a new hump, at the last capital of an acronym, after digits that belong to letters, and after the
letters that belong to digits. -/
def breaks (first c d : Char) (rest : List Char) : Bool :=
  d.isUpper && !c.isUpper || c.isUpper && d.isUpper && startsLower rest ||
    c.isDigit && d.isLower && first.isAlpha || c.isLower && d.isDigit && first.isDigit

/-- The words are the pieces of the text between the places where it breaks. -/
structure Divided (text : List Char) (ws : List (List Char)) : Prop where
  ne_nil : ∀ w ∈ ws, w ≠ []
  /-- Of the text, nothing but letters and digits is kept, and all of them are. -/
  flatten_eq : ws.flatten = text.filter isWordChar
  /-- No word spans another character. -/
  apart : ∀ front x back, text = front ++ x :: back → isWordChar x = false →
    ∃ before after, ws = before ++ after ∧ before.flatten = front.filter isWordChar
  /-- Between two letters or digits side by side, the word around the first one ends exactly where
  the text breaks. -/
  boundary : ∀ front c d back, text = front ++ c :: d :: back →
    isWordChar c = true → isWordChar d = true →
      ∃ before u v after, ws = before ++ (u ++ c :: v) :: after ∧
        before.flatten ++ u = front.filter isWordChar ∧
        (v = [] ↔ breaks (u.headD c) c d back = true)

/-! ## Classes of characters -/

theorem isWordChar_cases {c : Char} (h : isWordChar c = true) :
    c.isUpper = true ∧ c.isLower = false ∧ c.isDigit = false ∨
      c.isUpper = false ∧ c.isLower = true ∧ c.isDigit = false ∨
      c.isUpper = false ∧ c.isLower = false ∧ c.isDigit = true :=
  forall_isWordChar (P := fun c => c.isUpper = true ∧ c.isLower = false ∧ c.isDigit = false ∨
    c.isUpper = false ∧ c.isLower = true ∧ c.isDigit = false ∨
    c.isUpper = false ∧ c.isLower = false ∧ c.isDigit = true) (by decide) h

theorem isAlpha_eq (c : Char) : c.isAlpha = (c.isUpper || c.isLower) :=
  rfl

theorem classes_of_isUpper {c : Char} (h : c.isUpper = true) :
    c.isLower = false ∧ c.isDigit = false := by
  simpa [h] using isWordChar_cases (isWordChar_of_isUpper h)

theorem classes_of_isLower {c : Char} (h : c.isLower = true) :
    c.isUpper = false ∧ c.isDigit = false := by
  simpa [h] using isWordChar_cases (isWordChar_of_isLower h)

theorem classes_of_isDigit {c : Char} (h : c.isDigit = true) :
    c.isUpper = false ∧ c.isLower = false := by
  simpa [h] using isWordChar_cases (isWordChar_of_isDigit h)

theorem isUpper_eq {c : Char} (h : isWordChar c = true) :
    c.isUpper = !(c.isLower || c.isDigit) := by
  rcases isWordChar_cases h with ⟨h₁, h₂, h₃⟩ | ⟨h₁, h₂, h₃⟩ | ⟨h₁, h₂, h₃⟩ <;> simp [h₁, h₂, h₃]

theorem isUpper_or_isLower {c : Char} (h : isWordChar c = true) :
    (c.isUpper || c.isLower) = !c.isDigit := by
  rcases isWordChar_cases h with ⟨h₁, h₂, h₃⟩ | ⟨h₁, h₂, h₃⟩ | ⟨h₁, h₂, h₃⟩ <;> simp [h₁, h₂, h₃]

theorem isUpper_or_isDigit {c : Char} (h : isWordChar c = true) :
    (c.isUpper || c.isDigit) = !c.isLower := by
  rcases isWordChar_cases h with ⟨h₁, h₂, h₃⟩ | ⟨h₁, h₂, h₃⟩ | ⟨h₁, h₂, h₃⟩ <;> simp [h₁, h₂, h₃]

/-! ## Words cut where the text breaks -/

/-- What a word that starts with `first` has behind its character `c`, and what follows it. -/
def cutWord (first c : Char) : List Char → List Char × List Char
  | [] => ([], [])
  | d :: rest =>
    if isWordChar d && !breaks first c d rest then
      (d :: (cutWord first d rest).1, (cutWord first d rest).2)
    else ([], d :: rest)

section

variable {first c d : Char} {rest : List Char}

theorem cutWord_cons (hd : isWordChar d = true) (h : breaks first c d rest = false) :
    cutWord first c (d :: rest) = (d :: (cutWord first d rest).1, (cutWord first d rest).2) := by
  simp [cutWord, hd, h]

theorem cutWord_stop (h : isWordChar d = true → breaks first c d rest = true) :
    cutWord first c (d :: rest) = ([], d :: rest) := by
  cases hd : isWordChar d with
  | false => simp [cutWord, hd]
  | true => simp [cutWord, h hd]

theorem cutWord_append (first c : Char) (cs : List Char) :
    (cutWord first c cs).1 ++ (cutWord first c cs).2 = cs := by
  induction cs generalizing c with
  | nil => rfl
  | cons d rest ih =>
      rw [cutWord]
      split
      · exact congrArg (List.cons d) (ih d)
      · rfl

/-- A word that is cut off ends exactly where the text breaks. -/
theorem cutWord_ends {cs front v back : List Char} {x : Char}
    (hword : c :: (cutWord first c cs).1 = front ++ x :: v)
    (hrest : v ++ (cutWord first c cs).2 = d :: back) (hd : isWordChar d = true) :
    v = [] ↔ breaks first x d back = true := by
  induction front generalizing c cs with
  | nil =>
      obtain ⟨rfl, rfl⟩ := List.cons.inj hword
      rw [cutWord_append] at hrest
      subst hrest
      cases hbreaks : breaks first c d back with
      | false => simp [cutWord_cons hd hbreaks]
      | true => simp [cutWord_stop fun _ => hbreaks]
  | cons f front ih =>
      have htail : (cutWord first c cs).1 = front ++ x :: v := (List.cons.inj hword).2
      cases cs with
      | nil => simp [cutWord] at htail
      | cons e cs =>
          rw [cutWord] at htail hrest
          split at htail
          · rename_i hgoes
            rw [if_pos hgoes] at hrest
            exact ih htail hrest
          · simp at htail

/-- A run of characters of one class is cut off where the class ends, if that is where the text
breaks. -/
theorem cutWord_run {p : Char → Bool} (hp : ∀ d, p d = true → isWordChar d = true)
    (h : ∀ c d rest, p c = true → isWordChar d = true → breaks first c d rest = !p d)
    (hc : p c = true) (cs : List Char) :
    cutWord first c cs = (cs.takeWhile p, cs.dropWhile p) := by
  induction cs generalizing c with
  | nil => rfl
  | cons d cs ih =>
      cases hd : p d with
      | true =>
          have hgoes : breaks first c d cs = false := by simp [h c d cs hc (hp d hd), hd]
          rw [cutWord_cons (hp d hd) hgoes, ih hd]
          simp [hd]
      | false =>
          have hstop : isWordChar d = true → breaks first c d cs = true := by
            intro hword
            simp [h c d cs hc hword, hd]
          simp [cutWord_stop hstop, hd]

/-- A run of one class followed by a run of another one is cut off where the second class ends, if
that is where the text breaks. The rest of the text may have to be as `G` says. -/
theorem cutWord_runs {p q : Char → Bool} {G : List Char → Prop}
    (hp : ∀ d, p d = true → isWordChar d = true) (hq : ∀ d, q d = true → isWordChar d = true)
    (hG : ∀ d rest, p d = true → G (d :: rest) → G rest)
    (h : ∀ c d rest, p c = true → isWordChar d = true → G (d :: rest) →
      breaks first c d rest = !(p d || q d))
    (h' : ∀ c d rest, q c = true → isWordChar d = true → breaks first c d rest = !q d)
    (hc : p c = true) {cs : List Char} (hcs : G cs) : cutWord first c cs = takeRuns p q cs := by
  induction cs generalizing c with
  | nil => rfl
  | cons d cs ih =>
      cases hd : p d with
      | true =>
          have hgoes : breaks first c d cs = false := by simp [h c d cs hc (hp d hd) hcs, hd]
          rw [cutWord_cons (hp d hd) hgoes, ih hd (hG d cs hd hcs)]
          simp [takeRuns, hd]
      | false =>
          cases hd' : q d with
          | true =>
              have hgoes : breaks first c d cs = false := by
                simp [h c d cs hc (hq d hd') hcs, hd']
              rw [cutWord_cons (hq d hd') hgoes, cutWord_run hq h' hd']
              simp [takeRuns, hd, hd']
          | false =>
              have hstop : isWordChar d = true → breaks first c d cs = true := by
                intro hword
                simp [h c d cs hc hword hcs, hd, hd']
              simp [cutWord_stop hstop, takeRuns, hd, hd']

/-- The last capital before a lower-case letter starts the next word. -/
theorem cutWord_acronym (hc : c.isUpper = true) {front : List Char}
    (hfront : ∀ x ∈ front, x.isUpper = true) {last : Char} (hlast : last.isUpper = true)
    (hrest : startsLower rest = true) :
    cutWord first c (front ++ last :: rest) = (front, last :: rest) := by
  induction front generalizing c with
  | nil => exact cutWord_stop fun _ => by simp [breaks, hc, hlast, hrest]
  | cons d front ih =>
      obtain ⟨hd, hfront⟩ := List.forall_mem_cons.mp hfront
      have hnext : startsLower (front ++ last :: rest) = false := by
        cases front with
        | nil => exact (classes_of_isUpper hlast).1
        | cons e front => exact (classes_of_isUpper (hfront e List.mem_cons_self)).1
      have hgoes : breaks first c d (front ++ last :: rest) = false := by
        simp [breaks, hc, classes_of_isUpper hc, hnext]
      rw [List.cons_append, cutWord_cons (isWordChar_of_isUpper hd) hgoes, ih hd hfront]

/-! ## Words taken by their shape -/

theorem breaks_of_isUpper (hc : c.isUpper = true) :
    breaks first c d rest = (d.isUpper && startsLower rest) := by
  simp [breaks, hc, classes_of_isUpper hc]

theorem breaks_of_isLower (hc : c.isLower = true) :
    breaks first c d rest = (d.isUpper || d.isDigit && first.isDigit) := by
  simp [breaks, hc, classes_of_isLower hc]

theorem breaks_of_isDigit (hc : c.isDigit = true) :
    breaks first c d rest = (d.isUpper || d.isLower && first.isAlpha) := by
  simp [breaks, hc, classes_of_isDigit hc]

/-- Lower-case letters go on with digits in a word that starts with a letter. -/
theorem cutWord_lower (hfirst : first.isAlpha = true) (hdigit : first.isDigit = false)
    (hc : c.isLower = true) (cs : List Char) :
    cutWord first c cs = takeRuns Char.isLower Char.isDigit cs := by
  refine cutWord_runs (G := fun _ => True) (fun _ => isWordChar_of_isLower)
    (fun _ => isWordChar_of_isDigit) (fun _ _ _ _ => trivial) ?_ ?_ hc trivial
  · intro c d rest hc hd _
    rw [breaks_of_isLower hc, hdigit, Bool.and_false, Bool.or_false, isUpper_eq hd]
  · intro c d rest hc hd
    rw [breaks_of_isDigit hc, hfirst, Bool.and_true, isUpper_or_isLower hd]

/-- Digits go on with lower-case letters in a word that starts with a digit. -/
theorem cutWord_digit (hfirst : first.isAlpha = false) (hdigit : first.isDigit = true)
    (hc : c.isDigit = true) (cs : List Char) :
    cutWord first c cs = takeRuns Char.isDigit Char.isLower cs := by
  refine cutWord_runs (G := fun _ => True) (fun _ => isWordChar_of_isDigit)
    (fun _ => isWordChar_of_isLower) (fun _ _ _ _ => trivial) ?_ ?_ hc trivial
  · intro c d rest hc hd _
    rw [breaks_of_isDigit hc, hfirst, Bool.and_false, Bool.or_false, isUpper_eq hd, Bool.or_comm]
  · intro c d rest hc hd
    rw [breaks_of_isLower hc, hdigit, Bool.and_true, isUpper_or_isDigit hd]

theorem startsLower_eq_false {cs : List Char}
    (h : startsLower (cs.dropWhile Char.isUpper) = false) : startsLower cs = false := by
  cases cs with
  | nil => rfl
  | cons d cs =>
      cases hd : d.isUpper with
      | true => exact (classes_of_isUpper hd).1
      | false => rwa [List.dropWhile_cons_of_neg (by simp [hd])] at h

/-- Capitals that no lower-case letter follows go on with digits. -/
theorem cutWord_upper (hfirst : first.isAlpha = true) (hc : c.isUpper = true) {cs : List Char}
    (hcs : startsLower (cs.dropWhile Char.isUpper) = false) :
    cutWord first c cs = takeRuns Char.isUpper Char.isDigit cs := by
  refine cutWord_runs (G := fun cs => startsLower (cs.dropWhile Char.isUpper) = false)
    (fun _ => isWordChar_of_isUpper) (fun _ => isWordChar_of_isDigit) ?_ ?_ ?_ hc hcs
  · intro d rest hd hrest
    rwa [List.dropWhile_cons_of_pos hd] at hrest
  · intro c d rest hc hd hrest
    rw [breaks_of_isUpper hc]
    rcases isWordChar_cases hd with ⟨hupper, -⟩ | ⟨hupper, hlower, -⟩ | ⟨hupper, -, hdigit⟩
    · rw [List.dropWhile_cons_of_pos hupper] at hrest
      simp [hupper, startsLower_eq_false hrest]
    · simp [hupper, startsLower, hlower] at hrest
    · simp [hupper, hdigit]
  · intro c d rest hc hd
    rw [breaks_of_isDigit hc, hfirst, Bool.and_true, isUpper_or_isLower hd]

theorem firstWord_upper (hc : c.isUpper = true) (cs : List Char) :
    firstWord c cs = (c :: (cutWord c c cs).1, (cutWord c c cs).2) := by
  have halpha : c.isAlpha = true := by simp [isAlpha_eq, hc]
  cases hnext : startsLower (cs.dropWhile Char.isUpper) with
  | false => simp [firstWord, hc, hnext, cutWord_upper halpha hc hnext]
  | true =>
      cases hlast : (cs.takeWhile Char.isUpper).getLast? with
      | none =>
          -- the capital starts a word of lower-case letters
          cases cs with
          | nil => simp [startsLower] at hnext
          | cons d cs =>
              have hd : d.isUpper = false := by simpa [List.takeWhile_cons] using hlast
              rw [List.dropWhile_cons_of_neg (by simp [hd])] at hnext
              have hlower : d.isLower = true := hnext
              have hgoes : breaks c c d cs = false := by simp [breaks_of_isUpper hc, hd]
              rw [cutWord_cons (isWordChar_of_isLower hlower) hgoes,
                cutWord_lower halpha (classes_of_isUpper hc).2 hlower]
              simp [firstWord, hc, hd, hlower, startsLower, takeRuns]
      | some last =>
          -- the last of the capitals is left to the next word
          obtain ⟨front, hfront⟩ := List.getLast?_eq_some_iff.mp hlast
          have hcapitals : ∀ x ∈ front ++ [last], x.isUpper = true := by
            rw [← hfront]
            exact fun x hx => List.all_eq_true.mp List.all_takeWhile x hx
          obtain ⟨hfronts, hlasts⟩ := List.forall_mem_append.mp hcapitals
          have hcs : front ++ last :: cs.dropWhile Char.isUpper = cs := by
            simpa [hfront] using List.takeWhile_append_dropWhile (p := Char.isUpper) (l := cs)
          have hcut : cutWord c c (front ++ last :: cs.dropWhile Char.isUpper) = _ :=
            cutWord_acronym hc hfronts (hlasts last (by simp)) hnext
          rw [hcs] at hcut
          simp [firstWord, hc, hnext, hcut, hfront]

/-- The word that is taken off the front by its shape is the one that is cut off where the text
breaks. -/
theorem firstWord_eq (hc : isWordChar c = true) (cs : List Char) :
    firstWord c cs = (c :: (cutWord c c cs).1, (cutWord c c cs).2) := by
  rcases isWordChar_cases hc with ⟨hupper, -⟩ | ⟨hupper, hlower, hdigit⟩ | ⟨hupper, hlower, hdigit⟩
  · exact firstWord_upper hupper cs
  · have halpha : c.isAlpha = true := by simp [isAlpha_eq, hlower]
    simp [firstWord, hupper, hlower, cutWord_lower halpha hdigit hlower]
  · have halpha : c.isAlpha = false := by simp [isAlpha_eq, hupper, hlower]
    simp [firstWord, hupper, hlower, cutWord_digit halpha hdigit hdigit]

end

/-! ## The words of a text divide it -/

/-- The word `w` before `rest` ends exactly where the text breaks. -/
structure Taken (w rest : List Char) : Prop where
  ne_nil : w ≠ []
  chars : ∀ x ∈ w, isWordChar x = true
  ends : ∀ front x v d back, w = front ++ x :: v → v ++ rest = d :: back →
    isWordChar d = true → (v = [] ↔ breaks (front.headD x) x d back = true)

theorem taken_firstWord {c : Char} (hc : isWordChar c = true) (cs : List Char) :
    Taken (firstWord c cs).1 (firstWord c cs).2 := by
  refine
    { ne_nil := firstWord_ne_nil c cs
      chars := isWordChar_firstWord hc cs
      ends := ?_ }
  intro front x v d back hw hback hd
  rw [firstWord_eq hc] at hw hback
  have hfirst : front.headD x = c := by
    cases front with
    | nil => exact (List.cons.inj hw).1.symm
    | cons f front => exact (List.cons.inj hw).1.symm
  rw [hfirst]
  exact cutWord_ends hw hback hd

theorem filter_append_of_word {w : List Char} (h : ∀ x ∈ w, isWordChar x = true)
    (front : List Char) : (w ++ front).filter isWordChar = w ++ front.filter isWordChar := by
  rw [List.filter_append, List.filter_eq_self.mpr h]

namespace Divided

variable {w rest : List Char} {ws : List (List Char)}

theorem nil : Divided [] [] where
  ne_nil := by simp
  flatten_eq := rfl
  apart := by simp
  boundary := by simp

/-- Characters that words are not made of add no words. -/
theorem skip {c : Char} (h : Divided rest ws) (hc : isWordChar c = false) :
    Divided (c :: rest) ws := by
  have hfilter : ∀ front, (c :: front).filter isWordChar = front.filter isWordChar :=
    fun front => List.filter_cons_of_neg (by simp [hc])
  refine
    { ne_nil := h.ne_nil
      flatten_eq := by rw [h.flatten_eq, hfilter]
      apart := ?_
      boundary := ?_ }
  · intro front x back htext hx
    cases front with
    | nil => exact ⟨[], ws, rfl, rfl⟩
    | cons f front =>
        obtain ⟨rfl, hrest⟩ := List.cons.inj htext
        rw [hfilter]
        exact h.apart front x back hrest hx
  · intro front x d back htext hx hd
    cases front with
    | nil =>
        obtain ⟨rfl, -⟩ := List.cons.inj htext
        simp [hc] at hx
    | cons f front =>
        obtain ⟨rfl, hrest⟩ := List.cons.inj htext
        rw [hfilter]
        exact h.boundary front x d back hrest hx hd

/-- A word that ends where the text breaks comes before the words of what follows it. -/
theorem cons (h : Divided rest ws) (hw : Taken w rest) : Divided (w ++ rest) (w :: ws) := by
  have hfilter := filter_append_of_word hw.chars
  refine
    { ne_nil := List.forall_mem_cons.mpr ⟨hw.ne_nil, h.ne_nil⟩
      flatten_eq := by rw [List.flatten_cons, h.flatten_eq, hfilter]
      apart := ?_
      boundary := ?_ }
  · intro front x back htext hx
    -- the character lies behind the word
    obtain ⟨front, rfl, hrest⟩ : ∃ front', front = w ++ front' ∧ rest = front' ++ x :: back := by
      rcases List.append_eq_append_iff.mp htext with ⟨front', rfl, hrest⟩ | ⟨v, rfl, hrest⟩
      · exact ⟨front', rfl, hrest⟩
      · cases v with
        | nil => exact ⟨[], by simp, by simpa using hrest.symm⟩
        | cons y v =>
            obtain ⟨rfl, -⟩ := List.cons.inj hrest
            have hword : isWordChar x = true := hw.chars x (by simp)
            simp [hx] at hword
    obtain ⟨before, after, rfl, hbefore⟩ := h.apart front x back hrest hx
    exact ⟨w :: before, after, rfl, by rw [List.flatten_cons, hbefore, hfilter]⟩
  · intro front c d back htext hc hd
    have hbehind : ∀ front', rest = front' ++ c :: d :: back → front = w ++ front' →
        ∃ before u v after, w :: ws = before ++ (u ++ c :: v) :: after ∧
          before.flatten ++ u = front.filter isWordChar ∧
          (v = [] ↔ breaks (u.headD c) c d back = true) := by
      rintro front' hrest rfl
      obtain ⟨before, u, v, after, rfl, hbefore, hends⟩ := h.boundary front' c d back hrest hc hd
      refine ⟨w :: before, u, v, after, rfl, ?_, hends⟩
      rw [List.flatten_cons, List.append_assoc, hbefore, hfilter]
    rcases List.append_eq_append_iff.mp htext with ⟨front', rfl, hrest⟩ | ⟨v, hv, hrest⟩
    · exact hbehind front' hrest rfl
    · cases v with
      | nil => exact hbehind [] (by simpa using hrest.symm) (by simpa using hv.symm)
      | cons y v =>
          obtain ⟨rfl, hback⟩ := List.cons.inj hrest
          refine ⟨[], front, v, ws, by simp [hv], ?_, hw.ends front c v d back hv hback.symm hd⟩
          have hfront : ∀ x ∈ front, isWordChar x = true :=
            fun x hx => hw.chars x (by simp [hv, hx])
          rw [List.filter_eq_self.mpr hfront]
          rfl

/-! ### No other words do -/

theorem of_skip {c : Char} (h : Divided (c :: rest) ws) (hc : isWordChar c = false) :
    Divided rest ws := by
  have hfilter : ∀ front, (c :: front).filter isWordChar = front.filter isWordChar :=
    fun front => List.filter_cons_of_neg (by simp [hc])
  refine
    { ne_nil := h.ne_nil
      flatten_eq := by rw [h.flatten_eq, hfilter]
      apart := ?_
      boundary := ?_ }
  · rintro front x back rfl hx
    rw [← hfilter]
    exact h.apart (c :: front) x back rfl hx
  · rintro front x d back rfl hx hd
    rw [← hfilter]
    exact h.boundary (c :: front) x d back rfl hx hd

theorem of_cons (h : Divided (w ++ rest) (w :: ws)) (hchars : ∀ x ∈ w, isWordChar x = true) :
    Divided rest ws := by
  have hw : 0 < w.length := List.length_pos_iff.mpr (h.ne_nil w List.mem_cons_self)
  have hfilter := filter_append_of_word hchars
  refine
    { ne_nil := (List.forall_mem_cons.mp h.ne_nil).2
      flatten_eq := List.append_cancel_left (by rw [← List.flatten_cons, h.flatten_eq, hfilter])
      apart := ?_
      boundary := ?_ }
  · rintro front x back rfl hx
    obtain ⟨before, after, hws, hbefore⟩ :=
      h.apart (w ++ front) x back (List.append_assoc w front _).symm hx
    rw [hfilter] at hbefore
    cases before with
    | nil =>
        have := congrArg List.length hbefore
        simp only [List.flatten_nil, List.length_nil, List.length_append] at this
        omega
    | cons b before =>
        obtain ⟨rfl, rfl⟩ := List.cons.inj hws
        exact ⟨before, after, rfl, List.append_cancel_left hbefore⟩
  · rintro front c d back rfl hc hd
    obtain ⟨before, u, v, after, hws, hbefore, hends⟩ :=
      h.boundary (w ++ front) c d back (List.append_assoc w front _).symm hc hd
    rw [hfilter] at hbefore
    cases before with
    | nil =>
        have hu := congrArg List.length hbefore
        have hwu := congrArg List.length (List.cons.inj hws).1
        simp only [List.flatten_nil, List.nil_append, List.length_append,
          List.length_cons] at hu hwu
        omega
    | cons b before =>
        obtain ⟨rfl, rfl⟩ := List.cons.inj hws
        refine ⟨before, u, v, after, rfl, ?_, hends⟩
        rw [List.flatten_cons, List.append_assoc] at hbefore
        exact List.append_cancel_left hbefore

/-- The first of the words ends at `c` exactly if the text breaks there, provided that it goes that
far. -/
theorem first_ends {front back : List Char} {c d : Char}
    (h : Divided (front ++ c :: d :: back) (w :: ws))
    (hfront : ∀ x ∈ front, isWordChar x = true) (hc : isWordChar c = true)
    (hd : isWordChar d = true) (hlt : front.length < w.length) :
    ∃ v, w = front ++ c :: v ∧ (v = [] ↔ breaks (front.headD c) c d back = true) := by
  obtain ⟨before, u, v, after, hws, hbefore, hends⟩ := h.boundary front c d back rfl hc hd
  rw [List.filter_eq_self.mpr hfront] at hbefore
  cases before with
  | nil =>
      obtain rfl : u = front := hbefore
      exact ⟨v, (List.cons.inj hws).1, hends⟩
  | cons b before =>
      obtain ⟨rfl, rfl⟩ := List.cons.inj hws
      have := congrArg List.length hbefore
      simp only [List.flatten_cons, List.length_append] at this
      omega

/-- The first of the words is the one that ends where the text breaks. -/
theorem first_eq {w' : List Char} (h : Divided (w ++ rest) (w' :: ws)) (hw : Taken w rest) :
    w' = w := by
  have hflat : w' ++ ws.flatten = w ++ rest.filter isWordChar := by
    rw [← List.flatten_cons, h.flatten_eq, filter_append_of_word hw.chars]
  rcases List.append_eq_append_iff.mp hflat with ⟨v, rfl, -⟩ | ⟨v, rfl, hrest⟩
  · -- a word that is cut off too early ends where the text does not break
    cases v with
    | nil => rw [List.append_nil]
    | cons d v =>
        obtain ⟨front, x, rfl⟩ :=
          (List.eq_nil_or_concat' w').resolve_left (h.ne_nil w' List.mem_cons_self)
        have hends := hw.ends front x (d :: v) d (v ++ rest) (by simp) rfl (hw.chars d (by simp))
        have htext : front ++ [x] ++ d :: v ++ rest = front ++ x :: d :: (v ++ rest) := by simp
        rw [htext] at h
        obtain ⟨v', hv', hends'⟩ := h.first_ends (fun y hy => hw.chars y (by simp [hy]))
          (hw.chars x (by simp)) (hw.chars d (by simp)) (by simp)
        obtain rfl : v' = [] := by simpa using hv'.symm
        cases hends.mpr (hends'.mp rfl)
  · -- a word that goes on too far goes on where the text breaks
    cases v with
    | nil => rw [List.append_nil]
    | cons d v =>
        exfalso
        cases rest with
        | nil => simp at hrest
        | cons e back =>
            cases he : isWordChar e with
            | false =>
                obtain ⟨before, after, hws, hbefore⟩ := h.apart w e back rfl he
                rw [List.filter_eq_self.mpr hw.chars] at hbefore
                cases before with
                | nil => exact hw.ne_nil hbefore.symm
                | cons b before =>
                    obtain ⟨rfl, rfl⟩ := List.cons.inj hws
                    have := congrArg List.length hbefore
                    simp only [List.flatten_cons, List.length_append, List.length_cons] at this
                    omega
            | true =>
                obtain ⟨front, x, rfl⟩ := (List.eq_nil_or_concat' w).resolve_left hw.ne_nil
                have hends := hw.ends front x [] e back rfl rfl he
                have htext : front ++ [x] ++ e :: back = front ++ x :: e :: back := by simp
                rw [htext] at h
                obtain ⟨v', hv', hends'⟩ := h.first_ends (fun y hy => hw.chars y (by simp [hy]))
                  (hw.chars x (by simp)) he (by simp)
                obtain rfl : v' = d :: v := by simpa using hv'.symm
                cases hends'.mpr (hends.mp rfl)

end Divided

theorem divided_words (text : List Char) : Divided text (words text) := by
  fun_induction words text with
  | case1 => exact Divided.nil
  | case2 c cs hc ih =>
      rw [← firstWord_append c cs]
      exact ih.cons (taken_firstWord hc cs)
  | case3 c cs hc ih => exact ih.skip (by simpa using hc)

theorem Divided.eq_words {text : List Char} {ws : List (List Char)} (h : Divided text ws) :
    ws = words text := by
  fun_induction words text generalizing ws with
  | case1 =>
      cases ws with
      | nil => rfl
      | cons w ws =>
          have hflat := h.flatten_eq
          simp [h.ne_nil w List.mem_cons_self] at hflat
  | case2 c cs hc ih =>
      have hw := taken_firstWord hc cs
      rw [← firstWord_append c cs] at h
      cases ws with
      | nil =>
          have hflat := h.flatten_eq
          rw [firstWord_append, List.filter_cons_of_pos hc] at hflat
          cases hflat
      | cons w ws =>
          obtain rfl := h.first_eq hw
          rw [ih (h.of_cons hw.chars)]
  | case3 c cs hc ih => exact ih (h.of_skip (by simpa using hc))

/-- The words of a name are the pieces between the places where it breaks: nothing but letters and
digits is kept, no word spans another character, and inside an unbroken run a word ends exactly
where `breaks` says so. No other list of words has these properties. -/
theorem wordsOf_eq_iff (name : String) (ws : List String) :
    wordsOf name = ws ↔ Divided name.toList (ws.map String.toList) := by
  constructor
  · rintro rfl
    have hmap : (wordsOf name).map String.toList = words name.toList := by
      simp [wordsOf, Function.comp_def]
    rw [hmap]
    exact divided_words name.toList
  · intro h
    rw [wordsOf, ← h.eq_words]
    simp [Function.comp_def]

example : wordsOf "HTTPServer2x-3dB" = ["HTTP", "Server2", "x", "3d", "B"] := by decide +kernel

end HostDecl
