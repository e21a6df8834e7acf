import HostDecl.Proofs.Backend.C
import HostDecl.Proofs.Header.Statements
import HostDecl.Proofs.Name.Escaping

/-!
# What the C backend says

Declared names are spelled as names of C, and none of them reads as a keyword. So each line that the
C backend writes says what it is meant to say.
-/

namespace HostDecl

namespace Header

/-! ## Spellings -/

/-- Of a name with a letter or a digit, C's spelling is a name. -/
theorem isName_spelled {name : String} (h : HasWord name) (role : Role) :
    IsName (Rules.c.apply name role).toList := by
  have hconvert := CaseStyle.isName_convert (Rules.c.caseFor role) h
  rw [Rules.apply, Rules.c.convert_of_hasWord h]
  split
  · obtain ⟨c, cs, hcs, hc⟩ := hconvert.exists_cons
    have hescaped : (Rules.c.escape.apply ((Rules.c.caseFor role).convert name)).toList =
        ((Rules.c.caseFor role).convert name).toList ++ ['_'] := by
      rw [Rules.c, Escape.apply, String.toList_append]
      rfl
    rw [hescaped]
    have hmark : IsIdent ['_'] := by decide
    refine ⟨List.forall_mem_append.mpr ⟨hconvert.ident, hmark⟩, c, ?_, hc⟩
    rw [hcs]
    rfl
  · exact hconvert

/-- C's spelling of an argument adds no types to a prototype: it is a name, or it has no letters
and no digits. -/
theorem silent_spelled (name : String) (role : Role) : Silent (Rules.c.apply name role).toList := by
  by_cases h : HasWord name
  · exact .inl (comma_not_mem_of_isIdent (isName_spelled h role).ident)
  · have happly : Rules.c.apply name role = name := Host.c.careful.apply_of_not_hasWord h role
    rw [happly]
    exact .inr (not_hasWord_iff.mp h)

theorem proper_spelled {name : String} (h : HasWord name) :
    (CType.named (Rules.c.typeName name).toList).Proper := by
  have hname := isName_spelled h .type
  refine ⟨hname, fun hmem => ?_⟩
  have hreserved : Rules.c.typeName name ∉ Rules.cReserved :=
    Host.c.careful.sidestep_not_mem_reserved (Rules.c.convert name .type)
  have hkeyword : ∀ keyword ∈ keywords,
      keyword.head? = some '_' ∨ String.ofList keyword ∈ Rules.cReserved := by
    decide +kernel
  rcases hkeyword _ hmem with hfront | hword
  · obtain ⟨c, hc, hword⟩ := hname.front
    obtain rfl : c = '_' := Option.some.inj ((show _ = some c from hc).symm.trans hfront)
    exact absurd hword (by decide)
  · rw [String.ofList_toList] at hword
    exact hreserved hword

/-! ## Types -/

/-- The type that a declaration introduces. -/
def declType (d : Decl) : CType :=
  match d.entity with
  | .struct _ => .struct (Rules.c.typeName d.name).toList
  | _ => .named (Rules.c.typeName d.name).toList

theorem declType_proper {d : Decl} (h : HasWord d.name) : (declType d).Proper := by
  unfold declType
  split
  · exact isName_spelled h .type
  · exact proper_spelled h

theorem structTag_toList (d : Decl) :
    (C.structTag d).toList = (CType.struct (Rules.c.typeName d.name).toList).text := by
  simp [C.structTag, CType.text, structWord]

theorem value_toList (config : Config) (read : TypeRef → String) (d : Decl) :
    ((C.sheet config).value read d).toList = (declType d).text := by
  dsimp only [C.sheet]
  unfold declType
  cases d.entity with
  | struct members => exact structTag_toList d
  | _ => rfl

/-! ## Lines -/

section

variable {read : TypeRef → String} {d : Decl} {type : CType}

theorem statement_aliasLine {target : TypeRef} (hread : (read target).toList = type.text)
    (h : type.Proper) (hd : HasWord d.name) :
    statement (C.aliasLine read d target).shown.toList =
      .typedef type (Rules.c.typeName d.name).toList := by
  have hline : (C.aliasLine read d target).shown.toList = "typedef".toList ++ ' ' ::
      (type.text ++ ' ' :: ((Rules.c.typeName d.name).toList ++ ';' :: [])) := by
    rw [C.aliasLine, Line.shown_mk_text]
    simp [hread]
  rw [hline]
  exact statement_typedef h (isName_spelled hd .type) []

theorem statement_memberLine {member : Field} (hread : (read member.type).toList = type.text)
    (h : type.Proper) (hmember : HasWord member.name) :
    statement (C.memberLine read member).shown.toList =
      .member type (Rules.c.fieldName member.name).toList := by
  have hline : (C.memberLine read member).shown.toList = ' ' :: ' ' :: ' ' :: ' ' ::
      (type.text ++ ' ' :: ((Rules.c.fieldName member.name).toList ++ [';'])) := by
    rw [C.memberLine, Line.shown_indented]
    simp [hread]
  rw [hline, statement_blank, statement_blank, statement_blank, statement_blank]
  exact statement_member h (isName_spelled hmember .field)

theorem statement_structLine (hd : HasWord d.name) :
    statement ({ text := C.structTag d ++ " \x7b" } : Line).shown.toList =
      .openStruct (Rules.c.typeName d.name).toList := by
  rw [Line.shown_mk_text, String.toList_append, structTag_toList]
  exact statement_openStruct (isName_spelled hd .type)

/-- The line of an assertion, up to what follows the number. -/
theorem assertLine_toList (what : String) (n : Nat) :
    ∃ rest, (C.assertLine what n).shown.toList = "_Static_assert".toList ++ '(' ::
      (what.toList ++ (" == ".toList ++ ((toString n).toList ++ ',' :: rest))) := by
  refine ⟨" \"bad ".toList ++ what.toList ++ "\");".toList, ?_⟩
  have hshown : (C.assertLine what n).shown =
      "_Static_assert(" ++ what ++ " == " ++ toString n ++ ", \"bad " ++ what ++ "\");" :=
    Line.shown_mk_text _
  rw [hshown]
  simp

/-- An assertion about a struct says what its operator makes of the number. -/
theorem statement_assertLine {what : String} {operator tail : List Char} {c : Char}
    (hwhat : what.toList = operator ++ '(' :: ((C.structTag d).toList ++ c :: tail))
    (hop : IsIdent operator) (hc : isIdentChar c = false) (hd : HasWord d.name) (n : Nat) :
    ∃ rest, statement (C.assertLine what n).shown.toList = .ofAssertion?
      (measured? operator (.struct (Rules.c.typeName d.name).toList)
        (c :: (tail ++ (" == ".toList ++ ((toString n).toList ++ ',' :: rest))))) := by
  have hproper : (CType.struct (Rules.c.typeName d.name).toList).Proper := isName_spelled hd .type
  obtain ⟨rest, hline⟩ := assertLine_toList what n
  refine ⟨rest, ?_⟩
  rw [hline, hwhat, structTag_toList, ← statement_assert hop hproper hc]
  simp only [List.append_assoc, List.cons_append]

/-- An assertion about a struct as a whole, with an operator that takes nothing but the struct. -/
theorem statement_wholeLine {front : String} {operator : List Char}
    {assertion : CType → Nat → Assertion} (hfront : front.toList = operator ++ ['('])
    (hop : IsIdent operator)
    (hmeasured : ∀ type n rest,
      measured? operator type (") == ".toList ++ ((toString n).toList ++ ',' :: rest)) =
        some (assertion type n))
    (hd : HasWord d.name) (n : Nat) :
    statement (C.assertLine (front ++ C.structTag d ++ ")") n).shown.toList =
      .assert (assertion (.struct (Rules.c.typeName d.name).toList) n) := by
  have hwhat : (front ++ C.structTag d ++ ")").toList =
      operator ++ '(' :: ((C.structTag d).toList ++ ')' :: []) := by simp [hfront]
  obtain ⟨rest, hline⟩ := statement_assertLine hwhat hop (by decide) hd n
  have hvalue : ')' :: ([] ++ (" == ".toList ++ ((toString n).toList ++ ',' :: rest))) =
      ") == ".toList ++ ((toString n).toList ++ ',' :: rest) := by simp
  rw [hline, hvalue, hmeasured]
  rfl

theorem statement_offsetLine (hd : HasWord d.name) {member : Field × Nat}
    (hmember : HasWord member.1.name) :
    statement (C.offsetLine d member).shown.toList =
      .assert (.offset (.struct (Rules.c.typeName d.name).toList)
        (Rules.c.fieldName member.1.name).toList member.2) := by
  have hwhat : ("offsetof(" ++ C.structTag d ++ ", " ++ Rules.c.fieldName member.1.name
      ++ ")").toList = "offsetof".toList ++ '(' :: ((C.structTag d).toList ++ ',' :: ' ' ::
        ((Rules.c.fieldName member.1.name).toList ++ [')'])) := by simp
  obtain ⟨rest, hline⟩ := statement_assertLine hwhat (by decide) (by decide) hd member.2
  have hvalue : ',' :: (' ' :: ((Rules.c.fieldName member.1.name).toList ++ [')']) ++
        (" == ".toList ++ ((toString member.2).toList ++ ',' :: rest))) =
      ',' :: ' ' :: ((Rules.c.fieldName member.1.name).toList ++
        (") == ".toList ++ ((toString member.2).toList ++ ',' :: rest))) := by simp
  have hname : IsName (Rules.c.fieldName member.1.name).toList := isName_spelled hmember .field
  rw [C.offsetLine, hline, hvalue, measured?_offset _ hname]
  rfl

theorem statement_enumLine (d : Decl) :
    statement ({ text := "enum ___" ++ Rules.c.typeName d.name ++ " \x7b" } : Line).shown.toList =
      .openEnum := by
  have hline : ("enum ___" ++ Rules.c.typeName d.name ++ " \x7b").toList = "enum".toList ++ ' ' ::
      ("___".toList ++ ((Rules.c.typeName d.name).toList ++ " \x7b".toList)) := by simp
  rw [Line.shown_mk_text, hline, statement_enum]

/-- No line inside an enum is its end. -/
theorem statement_variantLine (hd : HasWord d.name) (variant : String × Nat) :
    statement (C.variantLine d variant).shown.toList ≠ .close := by
  obtain ⟨c, cs, hcs, hc⟩ := (CaseStyle.isName_convert .shouty hd).exists_cons
  have hline : (C.variantLine d variant).shown.toList = ' ' :: ' ' :: ' ' :: ' ' :: c :: (cs ++
      ("_" ++ Rules.c.variantName variant.1 ++ " = " ++ toString variant.2 ++ ",").toList) := by
    rw [C.variantLine, Line.shown_indented]
    simp [hcs]
  rw [hline, statement_blank, statement_blank, statement_blank, statement_blank]
  exact statement_ne_close (isIdentChar_of_isWordChar hc) _

theorem statement_enumTypedef {reprName : String} (hread : reprName.toList = type.text)
    (h : type.Proper) (hd : HasWord d.name) :
    statement ({ text := "typedef " ++ reprName ++ " " ++ Rules.c.typeName d.name ++ "; // enum ___"
      ++ Rules.c.typeName d.name } : Line).shown.toList =
      .typedef type (Rules.c.typeName d.name).toList := by
  have hline : ("typedef " ++ reprName ++ " " ++ Rules.c.typeName d.name ++ "; // enum ___"
      ++ Rules.c.typeName d.name).toList = "typedef".toList ++ ' ' :: (type.text ++ ' ' ::
        ((Rules.c.typeName d.name).toList ++ ';' ::
          (" // enum ___".toList ++ (Rules.c.typeName d.name).toList))) := by
    simp [hread]
  rw [Line.shown_mk_text, hline]
  exact statement_typedef h (isName_spelled hd .type) _

/-- The types of parameters are those of the arguments. -/
theorem paramTypes_args {args : List Field} (hne : args ≠ []) {typeOf : TypeRef → CType}
    (hread : ∀ arg ∈ args, (read arg.type).toList = (typeOf arg.type).text ∧
      (typeOf arg.type).Proper) :
    paramTypes ((", ".intercalate (args.map (C.paramText read))).toList ++ [')', ';']) =
      args.map fun arg => typeOf arg.type := by
  have htext : ∀ arg ∈ args, (C.paramText read arg).toList =
      (typeOf arg.type).text ++ ' ' :: (Rules.c.fieldName arg.name).toList := by
    intro arg harg
    simp [C.paramText, (hread arg harg).1]
  induction args with
  | nil => exact (hne rfl).elim
  | cons arg args ih =>
      obtain ⟨⟨-, hproper⟩, hrest⟩ := List.forall_mem_cons.mp hread
      obtain ⟨harg, hargs⟩ := List.forall_mem_cons.mp htext
      have hsilent : Silent (Rules.c.fieldName arg.name).toList := silent_spelled _ .field
      by_cases hlast : args = []
      · subst hlast
        rw [List.map_singleton, String.intercalate_singleton, harg, List.append_assoc,
          List.cons_append, paramTypes_param hproper hsilent.append_close]
        rfl
      · have hmap : args.map (C.paramText read) ≠ [] := by simpa using hlast
        have hsplit : (", ".intercalate ((arg :: args).map (C.paramText read))).toList ++
              [')', ';'] =
            ((typeOf arg.type).text ++ ' ' :: (Rules.c.fieldName arg.name).toList) ++ ',' :: ' ' ::
              ((", ".intercalate (args.map (C.paramText read))).toList ++ [')', ';']) := by
          rw [List.map_cons, String.intercalate_cons_of_ne_nil hmap, String.toList_append,
            String.toList_append, harg]
          simp
        rw [hsplit, paramTypes_comma, paramTypes_param hproper hsilent, paramTypes_blank,
          ih hlast hrest hargs]
        rfl

/-- A prototype has the type of the result and those of the arguments. Where there is none, it has
the type without values. -/
theorem statement_functionLine {args : List Field} {result : Option TypeRef}
    {typeOf : TypeRef → CType}
    (hread : ∀ type ∈ args.map Field.type ++ result.toList,
      (read type).toList = (typeOf type).text ∧ (typeOf type).Proper) (hd : HasWord d.name) :
    statement (C.functionLine read d args result).shown.toList = .prototype
      ((result.map typeOf).getD voidType ::
        if args = [] then [voidType] else args.map fun arg => typeOf arg.type) := by
  have hvoid : voidType.Proper := ⟨by decide, by decide⟩
  obtain ⟨hargs, hresult⟩ := List.forall_mem_append.mp hread
  have hfront : ((result.map read).getD "void").toList = ((result.map typeOf).getD voidType).text ∧
      ((result.map typeOf).getD voidType).Proper := by
    cases result with
    | none => exact ⟨rfl, hvoid⟩
    | some type => exact hresult type (by simp)
  have hparams : paramTypes ((if (args.map (C.paramText read)).isEmpty then "void"
      else ", ".intercalate (args.map (C.paramText read))).toList ++ [')', ';']) =
      if args = [] then [voidType] else args.map fun arg => typeOf arg.type := by
    by_cases hnil : args = []
    · subst hnil
      exact paramTypes_text hvoid (by decide) (by decide)
    · have hempty : ¬ (args.map (C.paramText read)).isEmpty = true := by simpa using hnil
      rw [if_neg hempty, if_neg hnil]
      exact paramTypes_args hnil (List.forall_mem_map.mp hargs)
  have hline : (C.functionLine read d args result).shown.toList =
      ((result.map typeOf).getD voidType).text ++ ' ' :: ((Rules.c.functionName d.name).toList ++
        '(' :: ((if (args.map (C.paramText read)).isEmpty then "void"
          else ", ".intercalate (args.map (C.paramText read))).toList ++ [')', ';'])) := by
    have hshown : (C.functionLine read d args result).shown =
        (result.map read).getD "void" ++ " " ++ Rules.c.functionName d.name ++ "(" ++
          (if (args.map (C.paramText read)).isEmpty then "void"
            else ", ".intercalate (args.map (C.paramText read))) ++ ");" := Line.shown_mk_text _
    rw [hshown, ← hfront.1]
    simp only [String.toList_append, List.append_assoc]
    rfl
  have hname : IsName (Rules.c.functionName d.name).toList := isName_spelled hd .function
  rw [hline, statement_prototype hfront.2 hname, hparams]

end

end Header

end HostDecl
