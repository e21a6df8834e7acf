import HostDecl.Proofs.Writer.Gate
import HostDecl.Writer.Tree

/-!
# One page, many writers

What the writers of a tree leave on their page, whoever takes which turn and whatever the sink
refuses. A step sends lines (`WriterStack.sent`), of which the sink takes some, and opens or closes
a block (`WriterStack.stepUnder_eq`). The journal of a run has an entry for every line that was
taken: the step that has sent it, the blocks around the writer that has sent it, and its text.

`WriterTree.Keeps` says that the page holds the lines of a journal and nothing else. One turn
preserves it (`Keeps.step`), and with that a whole run does (`Keeps.run`).
-/

namespace HostDecl

/-! ## Steps of a stack -/

/-- The texts that come with a step. -/
def WriterStep.texts : WriterStep → List String
  | .line text => [text]
  | .lines texts => texts
  | .openBlock opener closer => opener.toList ++ closer.toList
  | .endBlock | .closeBlock | .nestedBlock | .flush | .closeSink => []

/-- A line that the sink has taken: the step that has sent it, the blocks around the writer that
has sent it, and what the line says. -/
structure Entry where
  step : WriterStep
  blocks : List Block
  text : String
  deriving DecidableEq, Repr

/-- The line on the page: as much indentation as there are blocks around its writer, and the
text. -/
def Entry.shown (indent : String) (e : Entry) : String :=
  ({ indent, depth := e.blocks.length } : Writer).shown e.text

/-- The blank lines of a journal are those that end something. -/
def OnlyBreaks (journal : List Entry) : Prop :=
  ∀ e ∈ journal, e.text = "" → e.step = .endBlock

/-- Each block is one deeper than what is around it, and ends with a line of a certain kind, if it
ends with a line. -/
inductive Nested (bottom : Writer) (P : String → Prop) : List Block → Prop where
  | nil : Nested bottom P []
  | cons {blocks : List Block} {closer : Option String} (h : Nested bottom P blocks)
      (hcloser : ∀ text ∈ closer, P text) :
      Nested bottom P
        ({ writer := { bottom with depth := bottom.depth + blocks.length + 1 }, closer } :: blocks)

namespace WriterStack

/-- The blocks around the writer that sends the lines of a step. The line that closes a block comes
from the writer around it. -/
def around (s : WriterStack) : WriterStep → List Block
  | .closeBlock => s.blocks.tail
  | _ => s.blocks

/-- The writer that sends the lines of a step. -/
def speaker (s : WriterStack) (step : WriterStep) : Writer :=
  ({ s with blocks := s.around step } : WriterStack).top

/-- The lines that a step sends, one after the other, until one is refused. -/
def sent (s : WriterStack) : WriterStep → List String
  | .line text => [text]
  | .lines texts => texts
  | .endBlock => if s.page.atBreak then [] else [""]
  | .openBlock opener _ => opener.toList
  | .closeBlock => (s.blocks.head?.bind Block.closer).toList
  | .nestedBlock | .flush | .closeSink => []

/-- The blocks that are open after a step. A block is opened if its first line is taken. -/
def remaining (s : WriterStack) (gate : Gate) : WriterStep → List Block
  | .openBlock opener closer =>
    if s.top.taken gate s.page opener.toList = opener.toList then (s.push closer).blocks
    else s.blocks
  | .closeBlock => s.blocks.tail
  | .nestedBlock => (s.push none).blocks
  | _ => s.blocks

/-- The lines of a step that the sink takes. -/
def entries (s : WriterStack) (gate : Gate) (step : WriterStep) : List Entry :=
  ((s.speaker step).taken gate s.page (s.sent step)).map fun text =>
    { step, blocks := s.around step, text }

variable (s : WriterStack)

theorem act_eq (action : Writing Unit) :
    (s.act action).1 = { s with page := (outcome action s.page).2 } := by
  rw [act, ← outcome]
  rcases outcome action s.page with ⟨_ | _, page⟩ <;> rfl

theorem act_eq_none_iff (action : Writing Unit) :
    (s.act action).2 = none ↔ (outcome action s.page).1 = .ok () := by
  rw [act, ← outcome]
  rcases outcome action s.page with ⟨_ | _, page⟩ <;> simp

/-- What a step does to a stack: the sink takes what it takes of the lines that the step sends, and
blocks are opened and closed. -/
theorem stepUnder_eq (gate : Gate) (step : WriterStep) :
    (s.stepUnder gate step).1 = { s with
      page := s.page.writeLines (s.speaker step)
        ((s.speaker step).taken gate s.page (s.sent step))
      blocks := s.remaining gate step
      closed := (step matches .closeSink) || s.closed } := by
  have hlines : ∀ s : WriterStack, ∀ texts, (s.act (s.top.lines gate texts)).1 =
      { s with page := s.page.writeLines s.top (s.top.taken gate s.page texts) } := by
    intro s texts
    rw [act_eq, Writer.outcome_lines]
  cases step with
  | line text => rw [stepUnder, Writer.line_eq_lines, hlines]; rfl
  | lines texts => rw [stepUnder, hlines]; rfl
  | endBlock => rw [stepUnder, act_eq, Writer.outcome_endBlock, Writer.outcome_lines]; rfl
  | openBlock opener closer =>
      -- the page is as after the first line, and whether the line went through decides on the block
      have hopener := hlines s opener.toList
      have hopened := s.act_eq_none_iff (s.top.lines gate opener.toList)
      rw [Writer.outcome_lines_eq_ok_iff] at hopened
      rw [stepUnder, Writer.optional_eq_lines]
      rcases hact : s.act (s.top.lines gate opener.toList) with ⟨s', _ | refusal⟩ <;>
        rw [hact] at hopener hopened <;> obtain rfl : s' = _ := hopener
      · rw [remaining, if_pos (hopened.mp rfl)]
        rfl
      · rw [remaining, if_neg fun htaken => nomatch hopened.mpr htaken]
        rfl
  | closeBlock =>
      obtain ⟨page, bottom, _ | ⟨block, blocks⟩, limit, closed⟩ := s
      · rfl
      · simp only [stepUnder, Writer.optional_eq_lines, hlines]
        rfl
  | nestedBlock | flush | closeSink => rfl

theorem mem_entries {gate : Gate} {step : WriterStep} {e : Entry} (he : e ∈ s.entries gate step) :
    e.step = step ∧ e.blocks = s.around step ∧ e.text ∈ s.sent step := by
  obtain ⟨text, htext, rfl⟩ := List.mem_map.mp he
  exact ⟨rfl, rfl, (Writer.taken_prefix _ _ _ _).subset htext⟩

/-- A step does not add a blank line to a break, if only breaks are blank. -/
theorem spaced_entries {indent : String} {lines : List String} (hholds : s.page.Holds lines)
    (hspaced : Spaced lines) (gate : Gate) (step : WriterStep)
    (hbreaks : OnlyBreaks (s.entries gate step)) :
    Spaced (lines ++ (s.entries gate step).map (Entry.shown indent)) := by
  by_cases hstep : step = .endBlock
  · -- the end of a block looks at the page, and the page knows its last line
    subst hstep
    by_cases hbreak : s.page.atBreak = true
    · have hsent : s.sent .endBlock = [] := if_pos hbreak
      rw [entries, hsent, Writer.taken]
      simpa using hspaced
    · have hsent : s.sent .endBlock = [""] := if_neg hbreak
      have hlast : lines.getLast?.getD "" ≠ "" := by simpa [hholds.atBreak] using hbreak
      have hblank : Spaced (lines ++ [""]) := Spaced.concat_iff.mpr ⟨hspaced, .inl hlast⟩
      rw [entries, hsent, Writer.taken]
      split
      · simpa using hspaced
      · simpa [Writer.taken, Entry.shown, Writer.shown] using hblank
  · -- no other step has blank lines
    refine hspaced.append (List.forall_mem_map.mpr fun e he hblank => hstep ?_)
    rw [← (s.mem_entries he).1]
    exact hbreaks e he (Writer.shown_eq_empty_iff.mp hblank)

end WriterStack

namespace Nested

variable {bottom : Writer} {P : String → Prop} {blocks : List Block} {s : WriterStack}

theorem tail (h : Nested bottom P blocks) : Nested bottom P blocks.tail := by
  cases h with
  | nil => exact .nil
  | cons h _ => exact h

theorem closer (h : Nested bottom P blocks) {block : Block} (hblock : block ∈ blocks.head?)
    {text : String} (htext : text ∈ block.closer) : P text := by
  cases h with
  | nil => cases hblock
  | cons _ hcloser =>
      cases hblock
      exact hcloser text htext

/-- The writer on top is as deep as there are blocks around it. -/
theorem top (h : Nested s.bottom P s.blocks) :
    s.top = { s.bottom with depth := s.bottom.depth + s.blocks.length } := by
  rw [WriterStack.top]
  revert h
  cases s.blocks with
  | nil => intro _; rfl
  | cons block blocks =>
      intro h
      cases h with
      | cons => rfl

theorem push (h : Nested s.bottom P s.blocks) {closer : Option String}
    (hcloser : ∀ text ∈ closer, P text) : Nested s.bottom P (s.push closer).blocks := by
  rw [WriterStack.push, h.top]
  exact h.cons hcloser

theorem around (h : Nested s.bottom P s.blocks) (step : WriterStep) :
    Nested s.bottom P (s.around step) := by
  cases step with
  | closeBlock => exact h.tail
  | _ => exact h

theorem speaker (h : Nested s.bottom P s.blocks) (step : WriterStep) :
    s.speaker step = { s.bottom with depth := s.bottom.depth + (s.around step).length } :=
  Nested.top (s := { s with blocks := s.around step }) (h.around step)

/-- The blocks after a step are nested, if the line that is to close a new block is of the
kind. -/
theorem remaining (h : Nested s.bottom P s.blocks) (gate : Gate) {step : WriterStep}
    (htexts : ∀ text ∈ step.texts, P text) : Nested s.bottom P (s.remaining gate step) := by
  cases step with
  | line | lines | endBlock | flush | closeSink => exact h
  | openBlock opener closer =>
      rw [WriterStack.remaining]
      split
      · refine h.push fun text htext => htexts text (List.mem_append_right _ ?_)
        exact Option.mem_toList.mpr htext
      · exact h
  | closeBlock => exact h.tail
  | nestedBlock => exact h.push nofun

/-- What a step sends is of the kind, apart from the blank line of a break. -/
theorem sent (h : Nested s.bottom P s.blocks) {step : WriterStep}
    (htexts : ∀ text ∈ step.texts, P text) {text : String} (htext : text ∈ s.sent step) :
    P text ∨ step = .endBlock ∧ text = "" := by
  cases step with
  | line | lines => exact .inl (htexts text htext)
  | endBlock =>
      refine .inr ⟨rfl, ?_⟩
      rw [WriterStack.sent] at htext
      split at htext
      · cases htext
      · exact List.mem_singleton.mp htext
  | openBlock => exact .inl (htexts text (List.mem_append_left _ htext))
  | closeBlock =>
      rw [WriterStack.sent, Option.mem_toList] at htext
      obtain ⟨block, hblock, htext⟩ := Option.bind_eq_some_iff.mp htext
      exact .inl (h.closer hblock htext)
  | nestedBlock | flush | closeSink => cases htext

end Nested

/-! ## Turns with the writers of a tree -/

namespace WriterTree

/-- A page with nothing on it, and one writer. -/
def new (indent : String) : WriterTree :=
  { bottom := { indent } }

/-- The lines of a turn that the sink takes. -/
def entries (t : WriterTree) (turn : Turn) : List Entry :=
  match t.branches[turn.branch]? with
  | none => []
  | some blocks => (t.stackAt blocks).entries turn.gate turn.step

/-- The lines that the sink takes from the turns of a run. -/
def journal (t : WriterTree) : List Turn → List Entry
  | [] => []
  | turn :: turns => t.entries turn ++ (t.step turn).1.journal turns

/-- The page of the tree holds the lines of the journal, of which each is of a certain kind if it
is not a break, and each writer is as deep as there are blocks around it. -/
structure Keeps (indent : String) (P : String → Prop) (t : WriterTree) (journal : List Entry) :
    Prop where
  bottom : t.bottom = { indent }
  nested : ∀ blocks ∈ t.branches, Nested t.bottom P blocks
  holds : t.page.Holds (journal.map (Entry.shown indent))
  around : ∀ e ∈ journal, Nested { indent } P e.blocks
  texts : ∀ e ∈ journal, P e.text ∨ e.step = .endBlock ∧ e.text = ""
  spaced : OnlyBreaks journal → Spaced (journal.map (Entry.shown indent))

namespace Keeps

variable {indent : String} {P : String → Prop} {t : WriterTree} {journal : List Entry}

theorem new : (WriterTree.new indent).Keeps indent P [] where
  bottom := rfl
  nested := by
    intro blocks hblocks
    obtain rfl := List.mem_singleton.mp hblocks
    exact .nil
  holds := .new
  around := nofun
  texts := nofun
  spaced _ := by simp [Spaced]

/-- What the entries of a step show is what its writer shows. -/
theorem shown_entries (h : t.Keeps indent P journal) {blocks : List Block}
    (hblocks : blocks ∈ t.branches) (gate : Gate) (step : WriterStep) :
    ((t.stackAt blocks).entries gate step).map (Entry.shown indent) =
      (((t.stackAt blocks).speaker step).taken gate t.page ((t.stackAt blocks).sent step)).map
        ((t.stackAt blocks).speaker step).shown := by
  have hspeaker := Nested.speaker (s := t.stackAt blocks) (h.nested blocks hblocks) step
  have hwriter : (t.stackAt blocks).speaker step =
      { indent, depth := ((t.stackAt blocks).around step).length } := by
    simpa [stackAt, h.bottom] using hspeaker
  rw [hwriter, WriterStack.entries, hwriter, List.map_map]
  rfl

/-- What a step with one of the writers preserves. -/
theorem answer (h : t.Keeps indent P journal) {blocks : List Block}
    (hblocks : blocks ∈ t.branches) (gate : Gate) {step : WriterStep}
    (htexts : ∀ text ∈ step.texts, P text) :
    (t.answer ((t.stackAt blocks).stepUnder gate step).1).Keeps indent P
      (journal ++ (t.stackAt blocks).entries gate step) := by
  have hnested : Nested (t.stackAt blocks).bottom P (t.stackAt blocks).blocks :=
    h.nested blocks hblocks
  refine {
    bottom := h.bottom
    nested := ?_
    holds := ?_
    around := ?_
    texts := ?_
    spaced := ?_ }
  · rintro blocks' hblocks'
    rcases List.mem_append.mp hblocks' with hold | hnew
    · exact h.nested blocks' hold
    · rw [List.mem_singleton.mp hnew, WriterStack.stepUnder_eq]
      exact hnested.remaining gate htexts
  · rw [List.map_append, h.shown_entries hblocks, WriterTree.answer, WriterStack.stepUnder_eq]
    exact h.holds.writeLines _ _
  · refine List.forall_mem_append.mpr ⟨h.around, fun e he => ?_⟩
    rw [((t.stackAt blocks).mem_entries he).2.1, ← h.bottom]
    exact hnested.around step
  · refine List.forall_mem_append.mpr ⟨h.texts, fun e he => ?_⟩
    obtain ⟨hstep, -, htext⟩ := (t.stackAt blocks).mem_entries he
    rw [hstep]
    exact hnested.sent htexts htext
  · intro hbreaks
    obtain ⟨hold, hnew⟩ := List.forall_mem_append.mp hbreaks
    rw [List.map_append]
    exact (t.stackAt blocks).spaced_entries h.holds (h.spaced hold) gate step hnew

/-- What a turn preserves. -/
theorem step (h : t.Keeps indent P journal) {turn : Turn}
    (htexts : ∀ text ∈ turn.step.texts, P text) :
    (t.step turn).1.Keeps indent P (journal ++ t.entries turn) := by
  rw [WriterTree.step, entries]
  cases hbranch : t.branches[turn.branch]? with
  | none => simpa using h
  | some blocks => exact h.answer (List.mem_of_getElem? hbranch) turn.gate htexts

/-- What a run preserves. -/
theorem run (h : t.Keeps indent P journal) {turns : List Turn}
    (htexts : ∀ turn ∈ turns, ∀ text ∈ turn.step.texts, P text) :
    (t.run turns).Keeps indent P (journal ++ t.journal turns) := by
  induction turns generalizing t journal with
  | nil => simpa [WriterTree.run, WriterTree.journal] using h
  | cons turn turns ih =>
      obtain ⟨hturn, hrest⟩ := List.forall_mem_cons.mp htexts
      rw [WriterTree.journal, ← List.append_assoc]
      exact ih (h.step hturn) hrest

end Keeps

/-! ## One stack in a tree -/

/-- The last writer of the tree is the one on top of the stack, on the same page. -/
structure Ends (t : WriterTree) (s : WriterStack) : Prop where
  page : t.page = s.page
  bottom : t.bottom = s.bottom
  branch : t.branches.getLast? = some s.blocks

namespace Ends

variable {t : WriterTree} {s : WriterStack}

theorem new (indent : String) (limit : Option Nat) :
    (WriterTree.new indent).Ends { bottom := { indent }, limit } :=
  ⟨rfl, rfl, rfl⟩

/-- A step of the stack is a turn with the last writer. -/
theorem step (h : t.Ends s) (step : WriterStep) :
    (t.step ⟨t.branches.length - 1, step, s.gate⟩).1.Ends (s.step step).1 := by
  have hbranch := h.branch
  rw [List.getLast?_eq_getElem?] at hbranch
  have hstack : t.stackAt s.blocks = { s with limit := none, closed := false } := by
    rw [stackAt, h.page, h.bottom]
  simp only [WriterTree.step, hbranch, hstack, WriterStack.step, answer, WriterStack.stepUnder_eq]
  exact ⟨rfl, h.bottom, List.getLast?_concat⟩

/-- The steps of a stack are turns, each with the writer that the last one answered. -/
theorem run (h : t.Ends s) (steps : List WriterStep) :
    ∃ turns : List Turn, turns.map Turn.step = steps ∧ (t.run turns).Ends (s.run steps) := by
  induction steps generalizing t s with
  | nil => exact ⟨[], rfl, h⟩
  | cons step steps ih =>
      obtain ⟨turns, hturns, hends⟩ := ih (h.step step)
      exact ⟨⟨_, step, s.gate⟩ :: turns, by rw [List.map_cons, hturns], hends⟩

end Ends

/-- What a stack writes to a sink with a limit, the writers of a tree can write as well. -/
theorem exists_turns (indent : String) (limit : Option Nat) (steps : List WriterStep) :
    ∃ turns : List Turn, turns.map Turn.step = steps ∧
      ((new indent).run turns).page =
        (WriterStack.run { bottom := { indent }, limit } steps).page := by
  obtain ⟨turns, hturns, hends⟩ := (Ends.new indent limit).run steps
  exact ⟨turns, hturns, hends.page⟩

/-! ## The page -/

/-- Whichever writers take their turns on an empty page and whatever the sink refuses: after every
turn the page holds the lines of the journal so far, which have no line break in them. It is at a
break exactly if there is no line or the last one is blank. A line with text stands behind as many
indentations as its writer is deep, and that is the number of blocks around the writer. If only
breaks are blank lines, as they are where no step comes with an empty text, then the page does not
start with a blank line and has no two of them in a row. -/
theorem page_of_run {indent : String} (hindent : OneLine indent) {turns : List Turn}
    (htexts : ∀ turn ∈ turns, ∀ text ∈ turn.step.texts, OneLine text) :
    let t := WriterTree.new indent
    let journal := t.journal turns
    let lines := journal.map (Entry.shown indent)
    (t.run turns).page.text = linesText lines ∧ (∀ line ∈ lines, OneLine line) ∧
    ((t.run turns).page.atBreak = true ↔ lines = [] ∨ lines.getLast? = some "") ∧
    (∀ e ∈ journal, (t.stackAt e.blocks).top.depth = e.blocks.length ∧
      (e.text ≠ "" → e.shown indent =
        String.join (List.replicate (t.stackAt e.blocks).top.depth indent) ++ e.text)) ∧
    (OnlyBreaks journal → lines.head? ≠ some "" ∧ ¬ ["", ""] <:+: lines) ∧
    ((∀ turn ∈ turns, ∀ text ∈ turn.step.texts, text ≠ "") → OnlyBreaks journal) := by
  intro t journal lines
  have hkeeps : (t.run turns).Keeps indent OneLine journal := Keeps.new.run htexts
  refine ⟨hkeeps.holds.text, ?_, hkeeps.holds.atBreak_iff, ?_, ?_, ?_⟩
  · refine List.forall_mem_map.mpr fun e he => Writer.oneLine_shown ?_ ?_
    · exact hindent
    · rcases hkeeps.texts e he with htext | ⟨-, hblank⟩
      · exact htext
      · simp [hblank, OneLine]
  · intro e he
    have htop : (t.stackAt e.blocks).top.depth = e.blocks.length := by
      rw [Nested.top (s := t.stackAt e.blocks) (hkeeps.around e he)]
      exact Nat.zero_add _
    rw [htop]
    exact ⟨rfl, fun hne => if_neg hne⟩
  · exact fun hbreaks => ⟨(hkeeps.spaced hbreaks).head?_ne, (hkeeps.spaced hbreaks).not_twice⟩
  · intro hwords e he hblank
    have hkeeps : (t.run turns).Keeps indent (· ≠ "") journal := Keeps.new.run hwords
    rcases hkeeps.texts e he with htext | ⟨hstep, -⟩
    · exact absurd hblank htext
    · exact hstep

/-- A block that is refused its last line, and writers on both sides of it: the second line inside
the block does not fit, and the outer writer has nothing to separate after the inner one. -/
theorem page_of_run_refused :
    let turns : List Turn := [
      ⟨0, .openBlock (some "begin") (some "end"), .accepting⟩, ⟨0, .line "b", .accepting⟩,
      ⟨1, .lines ["c", "d"], .upTo 11⟩, ⟨1, .endBlock, .accepting⟩, ⟨1, .closeBlock, .closed⟩,
      ⟨0, .endBlock, .accepting⟩]
    let page := ((WriterTree.new "\t").run turns).page
    (∀ turn ∈ turns, ∀ text ∈ turn.step.texts, OneLine text) ∧
      page.text = linesText ["begin", "b", "\tc", ""] ∧ page.atBreak = true ∧
      OnlyBreaks ((WriterTree.new "\t").journal turns) := by
  intro turns page
  have htexts : ∀ turn ∈ turns, ∀ text ∈ turn.step.texts, OneLine text := by decide
  obtain ⟨htext, -, hbreak, -, -, hbreaks⟩ := page_of_run (by decide : OneLine "\t") htexts
  exact ⟨htexts, htext.trans (by decide +kernel), hbreak.mpr (by decide +kernel),
    hbreaks (by decide)⟩

end WriterTree

end HostDecl
