import HostDecl.Proofs.Name.Escaping

/-!
# Which spellings are identifiers

A host reads a spelling as a name if it is an identifier that is not reserved, or, in Rust, a word
behind the mark of raw names. A name with a letter or a digit in it is always spelled with the
right characters, and never as a reserved word without the mark. Only the first character can be
wrong: styles drop what stands in front of the first word, so an identifier like `_3d` is spelled
with a digit in front (`bare_isIdentifier_iff`).
-/

namespace HostDecl

/-- A letter or an underscore, and then letters, digits and underscores. -/
structure IsIdentifier (text : List Char) : Prop where
  ident : IsIdent text
  front : ∃ c ∈ text.head?, c.isDigit = false

instance (text : List Char) : Decidable (IsIdentifier text) :=
  decidable_of_iff (IsIdent text ∧ text.head?.any (fun c => !c.isDigit) = true)
    ⟨fun h => ⟨h.1, by simpa [Option.any_eq_true] using h.2⟩,
      fun h => ⟨h.1, by simpa [Option.any_eq_true] using h.2⟩⟩

/-- An underscore can stand behind everything. -/
theorem isIdent_append_underscore {text : List Char} (h : IsIdent text) :
    IsIdent (text ++ ['_']) :=
  List.forall_mem_append.mpr ⟨h, List.forall_mem_singleton.mpr (by decide)⟩

/-! ## The mark of raw names -/

namespace Escape

/-- The text without the mark of raw names, where a host has it. -/
def bare : Escape → List Char → List Char
  | .raw, 'r' :: '#' :: text => text
  | _, text => text

theorem bare_eq_or (escape : Escape) (text : List Char) :
    escape.bare text = text ∨ escape = .raw ∧ text = 'r' :: '#' :: escape.bare text := by
  unfold bare
  split
  · exact .inr ⟨rfl, rfl⟩
  · exact .inl rfl

/-- The characters of identifiers make no mark. -/
theorem bare_of_isIdent (escape : Escape) {text : List Char} (h : IsIdent text) :
    escape.bare text = text := by
  refine (escape.bare_eq_or text).resolve_right fun ⟨_, hmark⟩ => ?_
  rw [hmark] at h
  exact absurd (h '#' (by simp)) (by decide)

/-- Of an escaped word, the mark is all that is not the word, or an underscore follows it. -/
theorem bare_apply (escape : Escape) {text : String} (h : IsIdent text.toList) :
    escape.bare (escape.apply text).toList = text.toList ∨
      escape.bare (escape.apply text).toList = text.toList ++ ['_'] := by
  have hunderscore : escape.bare (text ++ "_").toList = text.toList ++ ['_'] := by
    rw [String.toList_append]
    exact escape.bare_of_isIdent (isIdent_append_underscore h)
  cases escape with
  | asIs => exact .inl rfl
  | underscore => exact .inr hunderscore
  | raw =>
      rw [apply]
      split
      · exact .inr hunderscore
      · exact .inl (by rw [String.toList_append]; rfl)

/-- The mark stands only in front of words that it can stand in front of. -/
theorem not_mem_notRaw {text word : String} (h : IsIdent text.toList)
    (heq : Escape.raw.apply text = "r#" ++ word) : word ∉ notRaw := by
  rw [apply] at heq
  split at heq
  · have hident : IsIdent (text ++ "_").toList := by
      rw [String.toList_append]
      exact isIdent_append_underscore h
    rw [heq] at hident
    exact absurd (hident '#' (by simp)) (by decide)
  · rename_i hnot
    obtain rfl := (String.append_right_inj "r#").mp heq
    exact hnot

end Escape

/-! ## Spellings -/

namespace Rules

variable {rules : Rules}

/-- The spelling of a name, without the mark of raw names. -/
def bare (rules : Rules) (name : String) (role : Role) : List Char :=
  rules.escape.bare (rules.apply name role).toList

/-- What a style makes of a name is spelled as it is, or with an underscore behind it. -/
theorem bare_eq_or (rules : Rules) {name : String} (h : HasWord name) (role : Role) :
    rules.bare name role = ((rules.caseFor role).convert name).toList ∨
      rules.bare name role = ((rules.caseFor role).convert name).toList ++ ['_'] := by
  have hident : IsIdent ((rules.caseFor role).convert name).toList :=
    (rules.caseFor role).isIdentChar_convert name
  rw [bare, apply_eq, convert_of_hasWord rules h, sidestep]
  split
  · exact rules.escape.bare_apply hident
  · exact .inl (rules.escape.bare_of_isIdent hident)

theorem isIdent_bare (rules : Rules) {name : String} (h : HasWord name) (role : Role) :
    IsIdent (rules.bare name role) := by
  have hident : IsIdent ((rules.caseFor role).convert name).toList :=
    (rules.caseFor role).isIdentChar_convert name
  rcases rules.bare_eq_or h role with heq | heq
  · rwa [heq]
  · rw [heq]
    exact isIdent_append_underscore hident

/-- A spelling starts with a digit exactly if the first letter or digit of the name is one. -/
theorem front_bare (rules : Rules) {name : String} {c : Char}
    (h : name.toList.find? isWordChar = some c) (role : Role) :
    ∃ d ∈ (rules.bare name role).head?, d.isDigit = c.isDigit := by
  have hword : isWordChar c = true := List.find?_some h
  have hname : HasWord name := ⟨c, List.mem_of_find?_eq_some h, hword⟩
  obtain ⟨d, hd, hcase⟩ := (rules.caseFor role).front_convert h
  refine ⟨d, ?_, ?_⟩
  · rcases rules.bare_eq_or hname role with heq | heq
    · rwa [heq]
    · rw [heq]
      exact List.mem_head?_append_of_mem_head? hd
  · rcases hcase with rfl | rfl
    · exact isDigit_toUpper_eq hword
    · exact isDigit_toLower_eq hword

/-- A reserved word is spelled with the mark, and is none that the mark cannot help. -/
theorem Careful.marked_of_bare_mem_reserved (hrules : rules.Careful) {name : String}
    (h : HasWord name) {role : Role}
    (hmem : String.ofList (rules.bare name role) ∈ rules.reserved) :
    rules.escape = .raw ∧ rules.apply name role = "r#" ++ String.ofList (rules.bare name role) ∧
      String.ofList (rules.bare name role) ∉ notRaw := by
  have hmarked : rules.escape = .raw ∧
      (rules.apply name role).toList = 'r' :: '#' :: rules.bare name role := by
    refine (rules.escape.bare_eq_or _).resolve_left fun heq => ?_
    rw [bare, heq, String.ofList_toList] at hmem
    exact hrules.sidestep_not_mem_reserved _ hmem
  obtain ⟨hraw, htext⟩ := hmarked
  have hspelled : rules.apply name role = "r#" ++ String.ofList (rules.bare name role) := by
    rw [← String.toList_inj, htext]
    simp
  refine ⟨hraw, hspelled, ?_⟩
  rw [apply_eq, convert_of_hasWord rules h, sidestep] at hspelled
  split at hspelled
  · rw [hraw] at hspelled
    exact Escape.not_mem_notRaw ((rules.caseFor role).isIdentChar_convert name) hspelled
  · refine absurd (.inl ?_) ((rules.caseFor role).not_marked_convert name)
    rw [hspelled]
    simp

end Rules

/-- The spelling of a name with a letter or a digit, but for the mark of raw names in Rust, has
only letters, digits and underscores in it. It is an identifier exactly if the first letter or
digit of the name is no digit, and a reserved word only behind the mark, where the word may stand
behind it. -/
theorem bare_isIdentifier_iff (host : Host) (role : Role) (name : String) (h : HasWord name) :
    IsIdent (host.rules.bare name role) ∧
    (IsIdentifier (host.rules.bare name role) ↔
      ∃ c ∈ name.toList.find? isWordChar, c.isDigit = false) ∧
    (String.ofList (host.rules.bare name role) ∈ host.rules.reserved →
      host = .rust ∧
      host.rules.apply name role = "r#" ++ String.ofList (host.rules.bare name role) ∧
      String.ofList (host.rules.bare name role) ∉ notRaw) := by
  obtain ⟨c, hc⟩ := Option.isSome_iff_exists.mp (List.find?_isSome.mpr h)
  have hident := host.rules.isIdent_bare h role
  refine ⟨hident, ?_, fun hmem => ?_⟩
  · obtain ⟨d, hd, hdigit⟩ := host.rules.front_bare hc role
    constructor
    · intro hidentifier
      obtain ⟨d', hd', hfalse⟩ := hidentifier.front
      obtain rfl := Option.mem_unique hd hd'
      exact ⟨c, hc, hdigit ▸ hfalse⟩
    · rintro ⟨c', hc', hfalse⟩
      obtain rfl := Option.mem_unique hc hc'
      exact ⟨hident, d, hd, hdigit.trans hfalse⟩
  · obtain ⟨hraw, hmarked⟩ := host.careful.marked_of_bare_mem_reserved h hmem
    refine ⟨?_, hmarked⟩
    cases host with
    | rust => rfl
    | c => cases hraw
    | llvm => cases hraw

/-- An identifier with a letter in it can be spelled as something that is none. -/
theorem bare_isIdentifier_iff_dimension :
    IsIdentifier "_3d".toList ∧ HasWord "_3d" ∧
      ¬ IsIdentifier (Host.rust.rules.bare "_3d" .type) := by
  have hword : HasWord "_3d" := by decide
  have hfront : "_3d".toList.find? isWordChar = some '3' := by decide
  obtain ⟨-, hiff, -⟩ := bare_isIdentifier_iff .rust .type "_3d" hword
  refine ⟨by decide, hword, fun h => ?_⟩
  obtain ⟨c, hc, hdigit⟩ := hiff.mp h
  obtain rfl := Option.mem_unique hfront hc
  cases hdigit

example : Host.c.rules.apply "__2nd_try" .field = "2nd_try" := by decide +kernel

end HostDecl
