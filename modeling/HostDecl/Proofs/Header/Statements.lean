import HostDecl.Proofs.Header.Reader

/-!
# What the lines of a header say

For each form of line that headers are made of, the statement that the reader finds in it. All of
it comes down to words: a word ends at the first character that cannot stand in it
(`word_append`), and a type is one word or two (`typeFront_text`).
-/

namespace HostDecl

namespace Header

variable {type : CType} {name rest : List Char} {c : Char}

/-! ## Words -/

theorem word_append (h : IsIdent name) (hc : isIdentChar c = false) (rest : List Char) :
    word (name ++ c :: rest) = (name, c :: rest) := by
  rw [word, List.takeWhile_append_of_pos h, List.dropWhile_append_of_pos h]
  simp [hc]

theorem skipBlanks_cons (hc : c ≠ ' ') (cs : List Char) : skipBlanks (c :: cs) = c :: cs := by
  simp [skipBlanks, hc]

@[simp] theorem skipBlanks_blank (cs : List Char) : skipBlanks (' ' :: cs) = skipBlanks cs := by
  simp [skipBlanks]

theorem ne_blank_of_isIdentChar (h : isIdentChar c = true) : c ≠ ' ' := by
  rintro rfl
  exact absurd h (by decide)

theorem skipBlanks_name (h : IsName name) (rest : List Char) :
    skipBlanks (name ++ rest) = name ++ rest := by
  obtain ⟨c, cs, rfl, hc⟩ := h.exists_cons
  exact skipBlanks_cons (ne_blank_of_isIdentChar (isIdentChar_of_isWordChar hc)) _

theorem after?_append (front rest : List Char) : after? front (front ++ rest) = some rest := by
  rw [after?, if_pos (List.prefix_append front rest), List.drop_left]

/-! ## Types -/

/-- Words that a line can start with and that name no type. -/
def keywords : List (List Char) :=
  structWord :: ["typedef", "enum", "_Static_assert"].map String.toList

/-- The type is written with names, and not with words that mean something else. -/
def CType.Proper : CType → Prop
  | .named name => IsName name ∧ name ∉ keywords
  | .struct tag => IsName tag

/-- A type starts with a letter or a digit. -/
theorem CType.Proper.exists_cons (h : type.Proper) :
    ∃ c cs, type.text = c :: cs ∧ isWordChar c = true := by
  cases type with
  | named name => exact h.1.exists_cons
  | struct tag => exact ⟨'s', _, rfl, by decide⟩

theorem comma_not_mem_of_isIdent (h : IsIdent name) : ',' ∉ name :=
  fun hmem => absurd (h ',' hmem) (by decide)

theorem CType.Proper.comma_not_mem (h : type.Proper) : ',' ∉ type.text := by
  cases type with
  | named name => exact comma_not_mem_of_isIdent h.1.ident
  | struct tag =>
      have htag : ',' ∉ tag := comma_not_mem_of_isIdent (IsName.ident h)
      simp [CType.text, structWord, htag]

theorem CType.Proper.skipBlanks (h : type.Proper) (rest : List Char) :
    skipBlanks (type.text ++ rest) = type.text ++ rest := by
  obtain ⟨c, cs, hcs, hc⟩ := h.exists_cons
  rw [hcs, List.cons_append]
  exact skipBlanks_cons (ne_blank_of_isIdentChar (isIdentChar_of_isWordChar hc)) _

theorem typeFront_text (h : type.Proper) (hc : isIdentChar c = false) (rest : List Char) :
    typeFront (type.text ++ c :: rest) = (type, c :: rest) := by
  cases type with
  | named name =>
      have hstruct : name ≠ structWord := by
        rintro rfl
        exact h.2 (by decide)
      rw [CType.text, typeFront, word_append h.1.ident hc]
      dsimp only
      rw [if_neg hstruct]
  | struct tag =>
      have hfirst : word (structWord ++ ' ' :: (tag ++ c :: rest)) =
          (structWord, ' ' :: (tag ++ c :: rest)) := word_append (by decide) (by decide) _
      rw [CType.text, List.append_assoc, List.cons_append, typeFront, hfirst]
      dsimp only
      have hname : IsName tag := h
      rw [if_pos rfl, skipBlanks_blank, skipBlanks_name hname, word_append hname.ident hc]

/-! ## Lines without a type in front -/

theorem statement_blank (cs : List Char) : statement (' ' :: cs) = statement cs := by
  rw [statement, skipBlanks_blank, statement]

theorem statement_nil : statement [] = .nothing := rfl

theorem statement_mark (hc : isIdentChar c = false) (hblank : c ≠ ' ') (cs : List Char) :
    statement (c :: cs) = mark (c :: cs) := by
  have hword : word ([] ++ c :: cs) = ([], c :: cs) := word_append (by simp [IsIdent]) hc cs
  rw [List.nil_append] at hword
  rw [statement, skipBlanks_cons hblank, hword]
  dsimp only
  rw [if_pos rfl]

theorem statement_comment (cs : List Char) : statement ("//".toList ++ cs) = .nothing := by
  have hslashes : "//".toList ++ cs = '/' :: '/' :: cs := by simp
  rw [hslashes, statement_mark (by decide) (by decide)]
  rfl

theorem statement_directive (cs : List Char) : statement ('#' :: cs) = .nothing := by
  rw [statement_mark (by decide) (by decide)]
  rfl

theorem statement_close : statement ['\x7d', ';'] = .close := by
  rw [statement_mark (by decide) (by decide)]
  rfl

/-- The statement of a line that starts with a word. -/
theorem statement_word (h : IsIdent name) (hne : name ≠ []) (hc : isIdentChar c = false)
    (rest : List Char) : statement (name ++ c :: rest) =
      if name = "typedef".toList then typedef (c :: rest)
      else if name = "enum".toList then .openEnum
      else if name = "_Static_assert".toList then staticAssert (c :: rest)
      else declaration (name ++ c :: rest) := by
  have hskip : skipBlanks (name ++ c :: rest) = name ++ c :: rest := by
    obtain ⟨x, xs, rfl⟩ := List.exists_cons_of_ne_nil hne
    exact skipBlanks_cons (ne_blank_of_isIdentChar (h x List.mem_cons_self)) _
  rw [statement, hskip, word_append h hc]
  dsimp only
  rw [if_neg hne]

theorem statement_typedef (h : type.Proper) (hname : IsName name) (rest : List Char) :
    statement ("typedef".toList ++ ' ' :: (type.text ++ ' ' :: (name ++ ';' :: rest))) =
      .typedef type name := by
  rw [statement_word (by decide) (by decide) (by decide), if_pos rfl, typedef, skipBlanks_blank,
    h.skipBlanks, typeFront_text h (by decide)]
  dsimp only
  rw [skipBlanks_blank, skipBlanks_name hname, word_append hname.ident (by decide)]
  rfl

theorem statement_enum (rest : List Char) :
    statement ("enum".toList ++ ' ' :: rest) = .openEnum := by
  rw [statement_word (by decide) (by decide) (by decide), if_neg (by decide), if_pos rfl]

theorem ofAssertion?_ne_close (assertion? : Option Assertion) :
    Statement.ofAssertion? assertion? ≠ .close := by
  cases assertion? <;> simp [Statement.ofAssertion?]

/-- A line that starts with a word does not end anything. -/
theorem statement_ne_close (hc : isIdentChar c = true) (cs : List Char) :
    statement (c :: cs) ≠ .close := by
  have hfirst : (word (c :: cs)).1 ≠ [] := by simp [word, hc]
  rw [statement, skipBlanks_cons (ne_blank_of_isIdentChar hc)]
  dsimp only
  rw [if_neg hfirst]
  split
  · unfold typedef
    dsimp only
    split <;> nofun
  · split
    · nofun
    · split
      · exact ofAssertion?_ne_close _
      · unfold declaration
        dsimp only
        split <;> nofun

/-! ## Assertions -/

theorem assertedValue?_append (n : Nat) (rest : List Char) :
    assertedValue? (") == ".toList ++ ((toString n).toList ++ ',' :: rest)) = some n := by
  have hdigits : (toString n).toList = Nat.toDigits 10 n := by
    rw [Nat.toString_eq_repr, Nat.toList_repr]
  have hall : ∀ c ∈ Nat.toDigits 10 n, c.isDigit = true := fun c hc =>
    Nat.isDigit_of_mem_toDigits (by decide) (by decide) hc
  have hne : Nat.toDigits 10 n ≠ [] := Nat.toDigits_ne_nil
  rw [assertedValue?, after?_append, hdigits]
  dsimp only
  rw [List.takeWhile_append_of_pos hall, List.takeWhile_cons_of_neg (by decide), List.append_nil,
    number?, if_pos ⟨hne, List.all_eq_true.mpr hall⟩, Nat.ofDigitChars_ten_toDigits]

theorem statement_assert {operator : List Char} (hop : IsIdent operator) (h : type.Proper)
    (hc : isIdentChar c = false) (rest : List Char) :
    statement ("_Static_assert".toList ++ '(' :: (operator ++ '(' :: (type.text ++ c :: rest))) =
      .ofAssertion? (measured? operator type (c :: rest)) := by
  rw [statement_word (by decide) (by decide) (by decide), if_neg (by decide), if_neg (by decide),
    if_pos rfl, staticAssert, List.drop_one, List.tail_cons, word_append hop (by decide)]
  dsimp only
  rw [List.drop_one, List.tail_cons, typeFront_text h hc]

theorem measured?_size (type : CType) (n : Nat) (rest : List Char) :
    measured? "sizeof".toList type (") == ".toList ++ ((toString n).toList ++ ',' :: rest)) =
      some (.size type n) := by
  rw [measured?, if_pos rfl, assertedValue?_append, Option.map_some]

theorem measured?_align (type : CType) (n : Nat) (rest : List Char) :
    measured? "_Alignof".toList type (") == ".toList ++ ((toString n).toList ++ ',' :: rest)) =
      some (.align type n) := by
  rw [measured?, if_neg (by decide), if_pos rfl, assertedValue?_append, Option.map_some]

theorem measured?_offset (type : CType) (hname : IsName name) (n : Nat) (rest : List Char) :
    measured? "offsetof".toList type (',' :: ' ' :: (name ++
      (") == ".toList ++ ((toString n).toList ++ ',' :: rest)))) =
      some (.offset type name n) := by
  have hparen : ") == ".toList = ')' :: " == ".toList := by simp
  have hvalue := assertedValue?_append n rest
  rw [hparen, List.cons_append] at hvalue ⊢
  rw [measured?, if_neg (by decide), if_neg (by decide), if_pos rfl, List.drop_one,
    List.tail_cons, skipBlanks_blank, skipBlanks_name hname, word_append hname.ident (by decide)]
  dsimp only
  rw [hvalue, Option.map_some]

/-! ## Lines with a type in front -/

/-- No line that starts with a type is anything else than a declaration. -/
theorem statement_text (h : type.Proper) (hc : isIdentChar c = false) (rest : List Char) :
    statement (type.text ++ c :: rest) = declaration (type.text ++ c :: rest) := by
  cases type with
  | named name =>
      obtain ⟨hname, hkeyword⟩ := h
      have hne : ∀ keyword ∈ keywords, name ≠ keyword := by
        rintro keyword hmem rfl
        exact hkeyword hmem
      rw [CType.text, statement_word hname.ident hname.ne_nil hc, if_neg (hne _ (by decide)),
        if_neg (hne _ (by decide)), if_neg (hne _ (by decide))]
  | struct tag =>
      rw [CType.text, List.append_assoc, List.cons_append,
        statement_word (by decide) (by decide) (by decide), if_neg (by decide),
        if_neg (by decide), if_neg (by decide)]

theorem statement_openStruct (h : IsName name) :
    statement ((CType.struct name).text ++ " \x7b".toList) = .openStruct name := by
  have hproper : (CType.struct name).Proper := h
  have hopen : " \x7b".toList = [' ', '\x7b'] := by simp
  rw [hopen, statement_text hproper (by decide), declaration, typeFront_text hproper (by decide)]
  rfl

theorem statement_member (h : type.Proper) (hname : IsName name) :
    statement (type.text ++ ' ' :: (name ++ [';'])) = .member type name := by
  rw [statement_text h (by decide), declaration, typeFront_text h (by decide)]
  dsimp only
  rw [skipBlanks_blank, skipBlanks_name hname, word_append hname.ident (by decide)]
  rfl

theorem statement_prototype (h : type.Proper) (hname : IsName name) (params : List Char) :
    statement (type.text ++ ' ' :: (name ++ '(' :: params)) =
      .prototype (type :: paramTypes params) := by
  rw [statement_text h (by decide), declaration, typeFront_text h (by decide)]
  dsimp only
  rw [skipBlanks_blank, skipBlanks_name hname, word_append hname.ident (by decide)]
  rfl

/-! ## Parameters -/

theorem paramTypes_comma (cs cs' : List Char) :
    paramTypes (cs ++ ',' :: cs') = paramTypes cs ++ paramTypes cs' := by
  rw [paramTypes, List.splitOn_append_cons_self, List.filterMap_append]
  rfl

theorem paramTypes_blank (cs : List Char) : paramTypes (' ' :: cs) = paramTypes cs := by
  obtain ⟨first, others, hparts⟩ := List.exists_cons_of_ne_nil (List.splitOn_ne_nil ',' cs)
  have hfirst : paramType? (' ' :: first) = paramType? first := by
    rw [paramType?, skipBlanks_blank, paramType?]
  have hcons : (' ' :: cs).splitOn ',' = (' ' :: first) :: others := by
    rw [List.splitOn_cons_eq_if_modifyHead, hparts]
    rfl
  rw [paramTypes, paramTypes, hcons, hparts, List.filterMap_cons, List.filterMap_cons, hfirst]

/-- Without letters and digits there are no types. -/
theorem paramTypes_eq_nil {cs : List Char} (h : ∀ c ∈ cs, isWordChar c = false) :
    paramTypes cs = [] := by
  by_cases hcomma : ',' ∈ cs
  · obtain ⟨front, rest, rfl, -⟩ := List.eq_append_cons_of_mem hcomma
    obtain ⟨hfront, hrest⟩ := List.forall_mem_append.mp h
    rw [paramTypes_comma, paramTypes_eq_nil hfront,
      paramTypes_eq_nil (List.forall_mem_cons.mp hrest).2, List.append_nil]
  · rw [paramTypes, List.splitOn_eq_singleton hcomma, List.filterMap_cons, List.filterMap_nil,
      paramType?]
    have hskip : ∀ c ∈ skipBlanks cs, isWordChar c = false :=
      fun c hc => h c (List.dropWhile_subset _ hc)
    cases hcs : skipBlanks cs with
    | nil => rfl
    | cons c cs =>
        have hc : isWordChar c = false := hskip c (by simp [hcs])
        simp [hc]
termination_by cs.length

/-- What stands behind the type of a parameter adds no types. -/
def Silent (cs : List Char) : Prop :=
  ',' ∉ cs ∨ ∀ c ∈ cs, isWordChar c = false

theorem Silent.append_close {cs : List Char} (h : Silent cs) : Silent (cs ++ [')', ';']) := by
  rcases h with h | h
  · exact .inl (by simpa using h)
  · have hclose : ∀ c ∈ [')', ';'], isWordChar c = false :=
      List.forall_mem_cons.mpr ⟨rfl, List.forall_mem_singleton.mpr rfl⟩
    exact .inr (List.forall_mem_append.mpr ⟨h, hclose⟩)

theorem paramTypes_text (h : type.Proper) (hc : isIdentChar c = false) {tail : List Char}
    (hcomma : ',' ∉ c :: tail) : paramTypes (type.text ++ c :: tail) = [type] := by
  have hnot : ',' ∉ type.text ++ c :: tail := by
    rw [List.mem_append, not_or]
    exact ⟨h.comma_not_mem, hcomma⟩
  obtain ⟨x, xs, hcons, hx⟩ := h.exists_cons
  have hparam : paramType? (type.text ++ c :: tail) = some type := by
    rw [paramType?, h.skipBlanks, hcons, List.cons_append]
    dsimp only
    rw [if_pos hx, ← List.cons_append, ← hcons, typeFront_text h hc]
  rw [paramTypes, List.splitOn_eq_singleton hnot, List.filterMap_cons, hparam]
  rfl

theorem paramTypes_param (h : type.Proper) {tail : List Char} (htail : Silent tail) :
    paramTypes (type.text ++ ' ' :: tail) = [type] := by
  by_cases hcomma : ',' ∈ tail
  · obtain ⟨front, rest, rfl, hfront⟩ := List.eq_append_cons_of_mem hcomma
    have hquiet := htail.resolve_left (fun hnot => hnot hcomma)
    obtain ⟨-, hrest⟩ := List.forall_mem_append.mp hquiet
    have hsplit : type.text ++ ' ' :: (front ++ ',' :: rest) =
        (type.text ++ ' ' :: front) ++ ',' :: rest := by simp
    rw [hsplit, paramTypes_comma, paramTypes_text h (by decide) (by simpa using hfront),
      paramTypes_eq_nil (List.forall_mem_cons.mp hrest).2, List.append_nil]
  · exact paramTypes_text h (by decide) (by simpa using hcomma)

end Header

end HostDecl
