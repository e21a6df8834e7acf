import HostDecl.Proofs.Generate.EnumRange
import HostDecl.Proofs.Name.Escaping
import Mathlib.Data.List.Pairwise

/-!
# Which enumerators of a header are the same

C has the constants of all enums in one scope, so each is called for its enum and for its variant.
A constant is what `SHOUTY_SNAKE_CASE` makes of the two names with an underscore between them
(`C.constant_eq_convert`): it tells the words of both, one after the other, but not where the words
of the enum end (`C.constant_eq_constant_iff`).

So the constants of one enum differ as its variants do. Those of two enums can be the same where
the name of one enum goes on with more words than that of the other, and a variant of the other one
begins with these words (`C.Overlap`). Unless two enums overlap in this way, all constants of a
header are apart (`enumerators_apart_iff`).
-/

namespace HostDecl

/-! ## Names apart -/

/-- The words of a name in lower case. -/
def loweredWords (name : String) : List String :=
  (wordsOf name).map String.toLower

/-- All of the names have words, and no two have the same but for the case of letters. -/
structure WordsApart (names : List String) : Prop where
  ne_nil : ∀ name ∈ names, wordsOf name ≠ []
  nodup : (names.map loweredWords).Nodup

theorem WordsApart.hasWord {names : List String} (h : WordsApart names) :
    ∀ name ∈ names, HasWord name :=
  fun name hname => not_not.mp (mt wordsOf_eq_nil_iff.mpr (h.ne_nil name hname))

/-! ## Names of two names -/

section

variable (name name' : String)

theorem words_append_underscore :
    words (name ++ "_" ++ name').toList = words name.toList ++ words name'.toList := by
  have hlist : (name ++ "_" ++ name').toList = name.toList ++ '_' :: name'.toList := by simp
  rw [hlist, words_append (by decide)]

theorem loweredWords_append_underscore :
    loweredWords (name ++ "_" ++ name') = loweredWords name ++ loweredWords name' := by
  rw [loweredWords, wordsOf, words_append_underscore, List.map_append, List.map_append]
  rfl

end

namespace CaseStyle

theorem toList_shouty (name : String) :
    (shouty.convert name).toList = underscored ((words name.toList).map raised) := by
  rw [convert, String.toList_ofList]
  rfl

/-- Two names with an underscore between them are written as both, with an underscore between. -/
theorem shouty_append_underscore {name name' : String} (h : HasWord name) (h' : HasWord name') :
    shouty.convert (name ++ "_" ++ name') =
      shouty.convert name ++ "_" ++ shouty.convert name' := by
  have hne : (words name.toList).map raised ≠ [] := by simpa using words_ne_nil h
  have hne' : (words name'.toList).map raised ≠ [] := by simpa using words_ne_nil h'
  rw [← String.toList_inj, toList_shouty, words_append_underscore, List.map_append,
    underscored_append hne hne']
  simp [toList_shouty]

/-- In capitals no letter is a small one. -/
theorem isLower_shouty (name : String) : ∀ c ∈ (shouty.convert name).toList, c.isLower = false := by
  rw [toList_shouty]
  refine forall_mem_underscored (by decide) (List.forall_mem_map.mpr fun w hw => ?_)
  exact List.forall_mem_map.mpr fun c hc => isLower_toUpper ((isWordChar_words _ w hw).2 c hc)

end CaseStyle

/-! ## Constants -/

/-- The enums that are declared, each with its variants. -/
def Interface.enums (i : Interface) : List (String × List String) :=
  i.decls.filterMap fun d => match d.entity with
    | .enum variants => some (d.name, variants)
    | _ => none

theorem Interface.mem_enums {i : Interface} {e : String × List String} (h : e ∈ i.enums) :
    ∃ d ∈ i.decls, d.name = e.1 ∧ d.entity = .enum e.2 := by
  obtain ⟨d, hd, hsome⟩ := List.mem_filterMap.mp h
  split at hsome
  · rename_i variants he
    obtain rfl := Option.some.inj hsome
    exact ⟨d, hd, rfl, he⟩
  · cases hsome

namespace C

/-- What C calls a variant of an enum. -/
def constant (enum variant : String) : String :=
  CaseStyle.shouty.convert enum ++ "_" ++ Rules.c.variantName variant

/-- How C declares the constants of an enum. -/
def constantsText (e : String × List String) : String :=
  "enum ___" ++ Rules.c.typeName e.1 ++ " \x7b\n" ++
    linesText (e.2.zipIdx.map fun (variant, value) =>
      "    " ++ constant e.1 variant ++ " = " ++ toString value ++ ",") ++ "\x7d;\n"

/-- The reserved words of C have small letters in them. -/
theorem shouty_not_mem_reserved (name : String) :
    CaseStyle.shouty.convert name ∉ Rules.c.reserved := by
  have hsmall : ∀ word ∈ Rules.cReserved, word.toList.any Char.isLower = true := by decide
  intro hmem
  obtain ⟨c, hc, hlower⟩ := List.any_eq_true.mp (hsmall _ hmem)
  rw [CaseStyle.isLower_shouty name c hc] at hlower
  cases hlower

theorem variantName_eq {variant : String} (h : HasWord variant) :
    Rules.c.variantName variant = CaseStyle.shouty.convert variant := by
  have hconvert : Rules.c.convert variant .variant = CaseStyle.shouty.convert variant :=
    Rules.c.convert_of_hasWord h .variant
  rw [Rules.variantName, Rules.apply_eq, hconvert, Rules.sidestep,
    if_neg (shouty_not_mem_reserved variant)]

section

variable {enum variant : String}

theorem constant_eq_convert (h : HasWord enum) (h' : HasWord variant) :
    constant enum variant = CaseStyle.shouty.convert (enum ++ "_" ++ variant) := by
  rw [constant, variantName_eq h', CaseStyle.shouty_append_underscore h h']

/-- Two constants are the same exactly if the words of the enum and of the variant, one after the
other, are the same but for the case of letters. -/
theorem constant_eq_constant_iff {enum' variant' : String} (h : HasWord enum)
    (h' : HasWord variant) (hother : HasWord enum') (hother' : HasWord variant') :
    constant enum variant = constant enum' variant' ↔
      loweredWords enum ++ loweredWords variant = loweredWords enum' ++ loweredWords variant' := by
  rw [constant_eq_convert h h', constant_eq_convert hother hother',
    CaseStyle.convert_eq_convert_iff (by decide), ← loweredWords_append_underscore,
    ← loweredWords_append_underscore]
  rfl

end

/-- The name of the second enum goes on with more words than that of the first, and with these
words begins a variant of the first, which goes on with the words of a variant of the second. -/
def Overlap (e e' : String × List String) : Prop :=
  ∃ more ≠ [], loweredWords e'.1 = loweredWords e.1 ++ more ∧
    ∃ variant ∈ e.2, ∃ variant' ∈ e'.2, loweredWords variant = more ++ loweredWords variant'

section

variable {e e' : String × List String}

theorem not_overlap_of_eq (h : loweredWords e.1 = loweredWords e'.1) : ¬ Overlap e e' := by
  rintro ⟨more, hmore, hwords, -⟩
  rw [h] at hwords
  exact hmore (List.append_right_eq_self.mp hwords.symm)

theorem Overlap.exists_append_eq (h : Overlap e e') :
    ∃ variant ∈ e.2, ∃ variant' ∈ e'.2,
      loweredWords e.1 ++ loweredWords variant = loweredWords e'.1 ++ loweredWords variant' := by
  obtain ⟨more, -, hwords, variant, hv, variant', hv', hrest⟩ := h
  exact ⟨variant, hv, variant', hv', by rw [hwords, hrest, List.append_assoc]⟩

/-- If names with different words go on to the same words, one is the front of the other. -/
theorem overlap_of_append_eq (hne : loweredWords e.1 ≠ loweredWords e'.1)
    {variant variant' : String} (hv : variant ∈ e.2) (hv' : variant' ∈ e'.2)
    (h : loweredWords e.1 ++ loweredWords variant = loweredWords e'.1 ++ loweredWords variant') :
    Overlap e e' ∨ Overlap e' e := by
  rcases List.append_eq_append_iff.mp h with ⟨more, hwords, hrest⟩ | ⟨more, hwords, hrest⟩
  · refine .inl ⟨more, ?_, hwords, variant, hv, variant', hv', hrest⟩
    rintro rfl
    exact hne (by simpa using hwords.symm)
  · refine .inr ⟨more, ?_, hwords, variant', hv', variant, hv, hrest⟩
    rintro rfl
    exact hne (by simpa using hwords)

end

end C

/-! ## All constants of a header -/

/-- The constants of all enums, in the order in which a header declares them. -/
def Interface.constants (i : Interface) : List String :=
  i.enums.flatMap fun e => e.2.map (C.constant e.1)

section

variable {i : Interface} (henums : WordsApart (i.enums.map Prod.fst))
  (hvariants : ∀ e ∈ i.enums, WordsApart e.2)

include henums hvariants

theorem constant_eq_constant_iff_of_mem {e e' : String × List String} (he : e ∈ i.enums)
    (he' : e' ∈ i.enums) : ∀ variant ∈ e.2, ∀ variant' ∈ e'.2,
      C.constant e.1 variant = C.constant e'.1 variant' ↔
        loweredWords e.1 ++ loweredWords variant = loweredWords e'.1 ++ loweredWords variant' := by
  intro variant hv variant' hv'
  exact C.constant_eq_constant_iff (henums.hasWord _ (List.mem_map_of_mem he))
    ((hvariants e he).hasWord variant hv) (henums.hasWord _ (List.mem_map_of_mem he'))
    ((hvariants e' he').hasWord variant' hv')

/-- The constants of one enum are apart. -/
theorem nodup_constants_of_mem {e : String × List String} (he : e ∈ i.enums) :
    (e.2.map (C.constant e.1)).Nodup := by
  have hwords := List.pairwise_map.mp (hvariants e he).nodup
  refine List.pairwise_map.mpr (hwords.imp_of_mem fun hv hv' hne heq => hne ?_)
  rw [constant_eq_constant_iff_of_mem henums hvariants he he _ hv _ hv'] at heq
  exact List.append_cancel_left heq

/-- Enums whose names have different words share no constant exactly if they do not overlap, one way
or the other. -/
theorem forall_constant_ne_iff {e e' : String × List String} (he : e ∈ i.enums) (he' : e' ∈ i.enums)
    (hne : loweredWords e.1 ≠ loweredWords e'.1) :
    (∀ x ∈ e.2.map (C.constant e.1), ∀ y ∈ e'.2.map (C.constant e'.1), x ≠ y) ↔
      ¬ C.Overlap e e' ∧ ¬ C.Overlap e' e := by
  have hiff := constant_eq_constant_iff_of_mem henums hvariants he he'
  simp only [List.forall_mem_map]
  constructor
  · refine fun h => ⟨fun hoverlap => ?_, fun hoverlap => ?_⟩
    · obtain ⟨variant, hv, variant', hv', heq⟩ := hoverlap.exists_append_eq
      exact h variant hv variant' hv' ((hiff variant hv variant' hv').mpr heq)
    · obtain ⟨variant', hv', variant, hv, heq⟩ := hoverlap.exists_append_eq
      exact h variant hv variant' hv' ((hiff variant hv variant' hv').mpr heq.symm)
  · rintro ⟨h, h'⟩ variant hv variant' hv' heq
    rcases C.overlap_of_append_eq hne hv hv' ((hiff variant hv variant' hv').mp heq)
      with hoverlap | hoverlap
    · exact h hoverlap
    · exact h' hoverlap

/-- All constants are apart exactly if no two enums overlap. -/
theorem nodup_constants_iff :
    i.constants.Nodup ↔ ∀ e ∈ i.enums, ∀ e' ∈ i.enums, ¬ C.Overlap e e' := by
  have hwithin : ∀ e ∈ i.enums, (e.2.map (C.constant e.1)).Pairwise (· ≠ ·) :=
    fun e he => List.nodup_iff_pairwise_ne.mp (nodup_constants_of_mem henums hvariants he)
  have hwords := henums.nodup
  rw [List.map_map, List.nodup_iff_pairwise_ne, List.pairwise_map] at hwords
  rw [Interface.constants, List.nodup_iff_pairwise_ne, List.pairwise_flatMap,
    and_iff_right hwithin]
  constructor
  · intro h e he e' he'
    have hpairs : i.enums.Pairwise fun e e' => ¬ C.Overlap e e' ∧ ¬ C.Overlap e' e :=
      (h.and hwords).imp_of_mem fun he he' ⟨h, hne⟩ =>
        (forall_constant_ne_iff henums hvariants he he' hne).mp h
    have : Std.Symm fun e e' => ¬ C.Overlap e e' ∧ ¬ C.Overlap e' e := ⟨fun _ _ h => h.symm⟩
    have hself : ∀ e ∈ i.enums, ¬ C.Overlap e e ∧ ¬ C.Overlap e e :=
      fun e _ => ⟨C.not_overlap_of_eq rfl, C.not_overlap_of_eq rfl⟩
    exact (hpairs.forall_of_forall hself he he').1
  · intro h
    exact hwords.imp_of_mem fun he he' hne =>
      (forall_constant_ne_iff henums hvariants he he' hne).mpr ⟨h _ he _ he', h _ he' _ he⟩

end

theorem C.shown_variantLine (d : Decl) (variant : String × Nat) :
    (C.variantLine d variant).shown =
      "    " ++ C.constant d.name variant.1 ++ " = " ++ toString variant.2 ++ "," := by
  rw [C.variantLine, Line.shown_indented, C.constant]
  simp only [String.append_assoc]

/-- The block of an enum is its constants, and then the type. -/
theorem C.blockText_enumLines (reprName : String) (d : Decl) (variants : List String) :
    blockText (C.enumLines reprName d variants) = C.constantsText (d.name, variants) ++
      ("typedef " ++ reprName ++ " " ++ Rules.c.typeName d.name ++ "; // enum ___" ++
        Rules.c.typeName d.name ++ "\n\n") := by
  have hconstants : (variants.zipIdx.map (C.variantLine d)).map Line.shown =
      variants.zipIdx.map fun (variant, value) =>
        "    " ++ C.constant d.name variant ++ " = " ++ toString value ++ "," := by
    rw [List.map_map]
    exact List.map_congr_left fun variant _ => C.shown_variantLine d variant
  rw [blockText, C.enumLines, List.map_append, List.map_append, hconstants, C.constantsText]
  simp [linesText_append, linesText_cons, Line.shown_mk_text, String.append_assoc]

/-- In a header of an interface whose enums, and the variants of each, have names that are apart in
their words, each enum stands with its constants, and those of one enum are apart. All constants are
apart exactly if no two enums overlap. -/
theorem enumerators_apart_iff (config : Config) (i : Interface) (skipUnsupported : Bool)
    (reporter : Reporter) (text : String)
    (h : (Host.c.generate config i skipUnsupported reporter).1 = .ok text)
    (henums : WordsApart (i.enums.map Prod.fst)) (hvariants : ∀ e ∈ i.enums, WordsApart e.2) :
    (∀ e ∈ i.enums, ∃ front rest, text = front ++ C.constantsText e ++ rest) ∧
    (∀ e ∈ i.enums, (e.2.map (C.constant e.1)).Nodup) ∧
    (i.constants.Nodup ↔ ∀ e ∈ i.enums, ∀ e' ∈ i.enums, ¬ C.Overlap e e') := by
  refine ⟨fun e he => ?_, fun e he => nodup_constants_of_mem henums hvariants he,
    nodup_constants_iff henums hvariants⟩
  obtain ⟨d, hd, hname, hentity⟩ := Interface.mem_enums he
  have hf : d.entity.isFunction = false := by rw [hentity]; rfl
  obtain ⟨front, rest, htext⟩ := Backend.block_in_text (C.uniform config) hd hf
    (Host.c.inked_enumLines config hentity) (C.page_of_enum hentity) h
  have hpair : (d.name, e.2) = e := by rw [hname]
  rw [Host.enumLines, C.blockText_enumLines, hpair, ← String.append_assoc] at htext
  exact ⟨front, _, htext.trans String.append_assoc⟩

/-- Two enums, the first of which has a variant that goes on like the name of the second. -/
def Interface.colors : Interface where
  name := "colors"
  decls := [
    { id := ⟨0⟩, name := "color", entity := .enum ["red", "mode_fast"] },
    { id := ⟨1⟩, name := "color_mode", entity := .enum ["fast", "slow"] }]

theorem Interface.wordsApart_colors : WordsApart (colors.enums.map Prod.fst) ∧
    ∀ e ∈ colors.enums, WordsApart e.2 := by
  refine ⟨⟨by decide +kernel, by decide +kernel⟩, ?_⟩
  have henums : colors.enums =
      [("color", ["red", "mode_fast"]), ("color_mode", ["fast", "slow"])] := rfl
  rw [henums]
  simp only [List.forall_mem_cons, List.not_mem_nil, false_implies, implies_true, and_true]
  exact ⟨⟨by decide +kernel, by decide +kernel⟩, ⟨by decide +kernel, by decide +kernel⟩⟩

theorem enumerators_apart_iff_colors :
    ∃ text, (Host.c.generate .linux .colors false {}).1 = .ok text ∧
      (∃ front rest, text = front ++ C.constantsText ("color", ["red", "mode_fast"]) ++ rest) ∧
      ¬ Interface.colors.constants.Nodup := by
  obtain ⟨henums, hvariants⟩ := Interface.wordsApart_colors
  obtain ⟨text, h⟩ := generates_of_accepted .c .linux .colors false {} (by decide)
    (by decide +kernel)
  obtain ⟨hstands, -, hiff⟩ :=
    enumerators_apart_iff .linux .colors false {} text h henums hvariants
  refine ⟨text, h, hstands _ (.head _), fun hnodup => ?_⟩
  exact hiff.mp hnodup _ (.head _) _ (.tail _ (.head _)) ⟨["mode"], by simp, by decide +kernel,
    "mode_fast", .tail _ (.head _), "fast", .head _, by decide +kernel⟩

/-- Enums and variants can have names with different words and yet share a constant: both of these
enums have one that is called `COLOR_MODE_FAST`. -/
theorem enumerators_shared :
    ¬ ∀ (config : Config) (i : Interface) (skipUnsupported : Bool) (reporter : Reporter)
      (text : String), (Host.c.generate config i skipUnsupported reporter).1 = .ok text →
      WordsApart (i.enums.map Prod.fst) → (∀ e ∈ i.enums, WordsApart e.2) →
      i.constants.Nodup := by
  intro hall
  obtain ⟨henums, hvariants⟩ := Interface.wordsApart_colors
  obtain ⟨text, h⟩ := generates_of_accepted .c .linux .colors false {} (by decide)
    (by decide +kernel)
  have hnodup := hall .linux .colors false {} text h henums hvariants
  revert hnodup
  decide +kernel

end HostDecl
