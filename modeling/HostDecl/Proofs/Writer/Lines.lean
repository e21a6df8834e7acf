import HostDecl.Writer.Page

/-!
# Pages as sequences of lines

What a declaration writes is a list of lines and then a break. `Page.print` writes the lines;
`print_text` says which text that comes to, and `Inked.endBlock_print` that the break after lines
with text adds one blank line and nothing else, so that the next declaration starts where every
declaration starts.
-/

namespace HostDecl

/-- A line of output, and how deep it stands. -/
structure Line where
  text : String
  depth : Nat := 0
  deriving DecidableEq, Repr

/-- The line with its indentation, without its end. -/
def Line.shown (line : Line) : String :=
  ({ depth := line.depth } : Writer).margin ++ line.text

/-- A line that is not indented shows its text. -/
theorem Line.shown_mk_text (text : String) : ({ text } : Line).shown = text := by
  simp [Line.shown, Writer.margin]

/-- A line that stands inside of a block shows its text behind one indentation. -/
theorem Line.shown_indented (text : String) :
    ({ text, depth := 1 } : Line).shown = "    " ++ text := by
  simp [Line.shown, Writer.margin]

/-- Lines with their ends. -/
def linesText (lines : List String) : String :=
  String.join (lines.map (· ++ "\n"))

@[simp] theorem linesText_nil : linesText [] = "" := rfl

theorem linesText_cons (line : String) (lines : List String) :
    linesText (line :: lines) = line ++ "\n" ++ linesText lines := by
  simp [linesText]

theorem linesText_append (lines lines' : List String) :
    linesText (lines ++ lines') = linesText lines ++ linesText lines' := by
  simp [linesText]

/-- The text of lines and the blank line behind them. -/
def blockText (lines : List Line) : String :=
  linesText (lines.map Line.shown) ++ "\n"

/-- The lines of a text that is made of blocks, their ends left out. -/
def blockLines (blocks : List (List Line)) : List String :=
  blocks.flatMap fun lines => lines.map Line.shown ++ [""]

theorem blockLines_append (blocks blocks' : List (List Line)) :
    blockLines (blocks ++ blocks') = blockLines blocks ++ blockLines blocks' :=
  List.flatMap_append

theorem join_blockText (blocks : List (List Line)) :
    String.join (blocks.map blockText) = linesText (blockLines blocks) := by
  induction blocks with
  | nil => rfl
  | cons lines blocks ih =>
      have hcons : blockLines (lines :: blocks) =
          lines.map Line.shown ++ [""] ++ blockLines blocks := rfl
      rw [List.map_cons, String.join_cons, ih, hcons, linesText_append, linesText_append]
      simp [blockText, linesText]

/-- The text has a character that leaves ink on paper, an ASCII one. -/
def visible (text : String) : Bool :=
  text.toList.any fun c => '!' ≤ c && c ≤ '~'

theorem visible_append (a b : String) : visible (a ++ b) = (visible a || visible b) := by
  simp [visible]

theorem visible_append_left {a : String} (h : visible a = true) (b : String) :
    visible (a ++ b) = true := by
  rw [visible_append, h, Bool.true_or]

theorem visible_append_right (a : String) {b : String} (h : visible b = true) :
    visible (a ++ b) = true := by
  rw [visible_append, h, Bool.or_true]

/-- There are lines, and none of them is blank. -/
structure Inked (lines : List Line) : Prop where
  ne_nil : lines ≠ []
  visible : ∀ line ∈ lines, visible line.text = true

/-! ## Texts without a line break -/

/-- The text has no line break in it. -/
def OneLine (text : String) : Prop :=
  '\n' ∉ text.toList

instance (text : String) : Decidable (OneLine text) :=
  inferInstanceAs (Decidable (¬ _))

@[simp] theorem oneLine_append {a b : String} : OneLine (a ++ b) ↔ OneLine a ∧ OneLine b := by
  simp [OneLine]

theorem OneLine.intercalate {sep : String} {texts : List String} (hsep : OneLine sep)
    (h : ∀ text ∈ texts, OneLine text) : OneLine (sep.intercalate texts) := by
  induction texts with
  | nil => simp [OneLine]
  | cons text texts ih =>
      obtain ⟨htext, hrest⟩ := List.forall_mem_cons.mp h
      by_cases hnil : texts = []
      · simpa [hnil] using htext
      · rw [String.intercalate_cons_of_ne_nil hnil]
        simp [htext, hsep, ih hrest]

theorem OneLine.of_mem_intercalate {sep text : String} {texts : List String}
    (h : OneLine (sep.intercalate texts)) (htext : text ∈ texts) : OneLine text := by
  induction texts with
  | nil => cases htext
  | cons first texts ih =>
      by_cases hnil : texts = []
      · subst hnil
        obtain rfl := List.mem_singleton.mp htext
        simpa using h
      · rw [String.intercalate_cons_of_ne_nil hnil, oneLine_append, oneLine_append] at h
        rcases List.mem_cons.mp htext with rfl | htext
        · exact h.1.1
        · exact ih h.2 htext

theorem oneLine_toString (n : Nat) : OneLine (toString n) := by
  intro h
  rw [Nat.toString_eq_repr, Nat.toList_repr] at h
  have := Nat.isDigit_of_mem_toDigits (by decide) (by decide) h
  exact absurd this (by decide)

theorem OneLine.shown {line : Line} (h : OneLine line.text) : OneLine line.shown := by
  rw [Line.shown, oneLine_append]
  refine ⟨?_, h⟩
  simp [Writer.margin, OneLine]

namespace Page

/-- The page after several lines. -/
def print (p : Page) (lines : List Line) : Page :=
  lines.foldl (fun p line => p.writeLine { depth := line.depth } line.text) p

@[simp] theorem print_nil (p : Page) : p.print [] = p := rfl

theorem print_cons (p : Page) (line : Line) (lines : List Line) :
    p.print (line :: lines) = (p.writeLine { depth := line.depth } line.text).print lines := rfl

theorem print_append (p : Page) (lines lines' : List Line) :
    p.print (lines ++ lines') = (p.print lines).print lines' :=
  List.foldl_append

theorem print_text (p : Page) {lines : List Line}
    (h : ∀ line ∈ lines, visible line.text = true) :
    (p.print lines).text = p.text ++ linesText (lines.map Line.shown) := by
  induction lines generalizing p with
  | nil => simp
  | cons line lines ih =>
      obtain ⟨hline, hrest⟩ := List.forall_mem_cons.mp h
      have hne : line.text ≠ "" := by
        intro h
        simp [h, visible] at hline
      rw [print_cons, ih _ hrest, List.map_cons, linesText_cons]
      simp [writeLine, Writer.chunk, Line.shown, hne, String.append_assoc]

theorem endBlock_of_atBreak {p : Page} (h : p.atBreak = true) (w : Writer) :
    p.endBlock w = p := by
  rw [endBlock, if_pos h]

end Page

namespace Inked

variable {lines : List Line}

theorem print_atBreak (h : Inked lines) (p : Page) : (p.print lines).atBreak = false := by
  obtain ⟨hne, hink⟩ := h
  rw [← List.dropLast_concat_getLast hne, Page.print_append]
  have hlast := hink _ (List.getLast_mem hne)
  have hempty : (lines.getLast hne).text ≠ "" := by
    intro h
    simp [h, HostDecl.visible] at hlast
  simpa [Page.print, Page.writeLine] using hempty

/-- Lines with text and then a break: the lines and one blank line. -/
theorem endBlock_print (h : Inked lines) (p : Page) :
    (p.print lines).endBlock {} = { text := p.text ++ blockText lines, atBreak := true } := by
  have hbreak := h.print_atBreak p
  simp [Page.endBlock, hbreak, Page.writeLine, Writer.chunk, p.print_text h.visible, blockText,
    String.append_assoc]

end Inked

end HostDecl
