import HostDecl.Proofs.Outcome
import HostDecl.Proofs.Writer.Lines
import HostDecl.Writer.Gate
import Mathlib.Data.List.Chain

/-!
# Lines through a gate

`Page.Holds` says which lines are on a page, and `Spaced` that none of them is blank where there is
a break already. Of several lines that a writer sends, the sink takes those before the first one
that it refuses (`Writer.taken`), and these are on the page afterwards (`Writer.outcome_lines`).
Everything else that a writer does comes to sending lines.
-/

namespace HostDecl

/-! ## Lines on a page -/

/-- A line of the writer as it stands on the page, without its end. -/
def Writer.shown (w : Writer) (text : String) : String :=
  if text = "" then "" else w.margin ++ text

theorem Writer.shown_eq_empty_iff {w : Writer} {text : String} : w.shown text = "" ↔ text = "" := by
  rw [shown]
  split <;> simp [*]

theorem Writer.oneLine_shown {w : Writer} {text : String} (hindent : OneLine w.indent)
    (htext : OneLine text) : OneLine (w.shown text) := by
  rw [shown]
  split
  · simp [OneLine]
  · rw [oneLine_append]
    exact ⟨by simpa [OneLine, Writer.margin] using fun _ => hindent, htext⟩

theorem Writer.chunk_eq (w : Writer) (text : String) : w.chunk text = w.shown text ++ "\n" := by
  rw [chunk, shown]
  simp only [String.isEmpty_iff]
  split <;> simp

/-- The page holds the lines, each with its end, and knows whether the last one is blank. -/
structure Page.Holds (p : Page) (lines : List String) : Prop where
  text : p.text = linesText lines
  atBreak : p.atBreak = (lines.getLast?.getD "").isEmpty

namespace Page.Holds

variable {p : Page} {lines : List String}

theorem new : Holds {} [] :=
  ⟨rfl, rfl⟩

theorem writeLine (h : p.Holds lines) (w : Writer) (text : String) :
    (p.writeLine w text).Holds (lines ++ [w.shown text]) where
  text := by simp [Page.writeLine, h.text, w.chunk_eq, linesText_append, linesText_cons]
  atBreak := by
    rw [Page.writeLine, List.getLast?_concat, Bool.eq_iff_iff]
    simp [w.shown_eq_empty_iff]

theorem writeLines (h : p.Holds lines) (w : Writer) (texts : List String) :
    (p.writeLines w texts).Holds (lines ++ texts.map w.shown) := by
  induction texts generalizing p lines with
  | nil => simpa [Page.writeLines] using h
  | cons text texts ih =>
      rw [List.map_cons, List.append_cons]
      exact ih (h.writeLine w text)

theorem atBreak_iff (h : p.Holds lines) :
    p.atBreak = true ↔ lines = [] ∨ lines.getLast? = some "" := by
  rw [h.atBreak]
  cases hlast : lines.getLast? with
  | none => simp [List.getLast?_eq_none_iff.mp hlast]
  | some line =>
      have hne : lines ≠ [] := by
        rintro rfl
        cases hlast
      simp [hne]

end Page.Holds

/-! ## Blank lines -/

/-- No line is blank where there is a break already: in front of the first line, or after a blank
line. -/
def Spaced (lines : List String) : Prop :=
  ("" :: lines).IsChain fun line next => line ≠ "" ∨ next ≠ ""

namespace Spaced

variable {lines : List String}

theorem concat_iff {line : String} :
    Spaced (lines ++ [line]) ↔ Spaced lines ∧ (lines.getLast?.getD "" ≠ "" ∨ line ≠ "") := by
  rw [Spaced, ← List.cons_append, List.isChain_append, List.getLast?_cons]
  simp [Spaced]

theorem append (h : Spaced lines) {texts : List String} (htexts : ∀ text ∈ texts, text ≠ "") :
    Spaced (lines ++ texts) := by
  induction texts generalizing lines with
  | nil => simpa using h
  | cons text texts ih =>
      obtain ⟨htext, hrest⟩ := List.forall_mem_cons.mp htexts
      simpa using ih (concat_iff.mpr ⟨h, .inr htext⟩) hrest

theorem head?_ne (h : Spaced lines) : lines.head? ≠ some "" := by
  intro hhead
  simpa using h.rel_head? hhead

theorem not_twice (h : Spaced lines) : ¬ ["", ""] <:+: lines := by
  intro htwice
  have htwo := h.tail.infix htwice
  simp at htwo

end Spaced

/-! ## Lines through a gate -/

namespace Writer

/-- What the sink takes of some lines: those before the first one that it refuses. -/
def taken (w : Writer) (gate : Gate) : Page → List String → List String
  | _, [] => []
  | p, text :: texts =>
    if (gate p (w.chunk text)).isSome then []
    else text :: w.taken gate (p.writeLine w text) texts

variable (w : Writer) (gate : Gate)

theorem taken_prefix (p : Page) (texts : List String) : w.taken gate p texts <+: texts := by
  induction texts generalizing p with
  | nil => exact List.nil_prefix
  | cons text texts ih =>
      rw [taken]
      split
      · exact List.nil_prefix
      · exact List.cons_prefix_cons.mpr ⟨rfl, ih _⟩

theorem outcome_line (text : String) (p : Page) :
    outcome (w.line gate text) p = match gate p (w.chunk text) with
      | some refusal => (.error refusal, p)
      | none => (.ok (), p.writeLine w text) := by
  rw [line, outcome_bind, outcome_get]
  dsimp only
  cases gate p (w.chunk text) with
  | none => rfl
  | some refusal => rfl

/-- The page has the lines that were taken. -/
theorem outcome_lines (texts : List String) (p : Page) :
    (outcome (w.lines gate texts) p).2 = p.writeLines w (w.taken gate p texts) := by
  induction texts generalizing p with
  | nil => rfl
  | cons text texts ih =>
      rw [lines, List.forM, outcome_bind, outcome_line, taken]
      cases gate p (w.chunk text) with
      | none => exact ih _
      | some refusal => rfl

/-- Nothing is refused exactly if every line is taken. -/
theorem outcome_lines_eq_ok_iff (texts : List String) (p : Page) :
    (outcome (w.lines gate texts) p).1 = .ok () ↔ w.taken gate p texts = texts := by
  induction texts generalizing p with
  | nil => simp [lines, taken, outcome_pure]
  | cons text texts ih =>
      rw [lines, List.forM, outcome_bind, outcome_line, taken]
      cases gate p (w.chunk text) with
      | none =>
          rw [if_neg (by simp), List.cons_inj_right]
          exact ih _
      | some refusal => simp

theorem line_eq_lines (text : String) : w.line gate text = w.lines gate [text] := by
  simp [lines]

theorem optional_eq_lines (text : Option String) :
    w.optional gate text = w.lines gate text.toList := by
  cases text with
  | none => rfl
  | some text => exact w.line_eq_lines gate text

theorem outcome_endBlock (p : Page) :
    outcome (w.endBlock gate) p = outcome (w.lines gate (if p.atBreak then [] else [""])) p := by
  rw [endBlock, outcome_bind, outcome_get]
  dsimp only
  split
  · rfl
  · rw [line_eq_lines]

end Writer

end HostDecl
