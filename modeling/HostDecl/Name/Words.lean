/-!
# The words of a declared name

A declared name is read as a sequence of words, whatever style it is written in: `HTTPServer2`,
`http_server2` and `http-server2` hold the same ones. A word is made of ASCII letters and digits;
every other character only separates. Inside an unbroken run, a word ends before a capital that
starts a new hump, and before the last capital of an acronym that a lower-case letter follows;
digits stay with the letters before them, and a word that starts with digits keeps the
lower-case letters right after them.

`firstWord` takes one word off the front, and `words` takes them all. No character is lost or
invented on the way (`firstWord_append`), and a word is never empty (`firstWord_ne_nil`).
-/

namespace HostDecl

/-- Words are made of these characters; all others separate words. -/
def isWordChar (c : Char) : Bool :=
  c.isUpper || c.isLower || c.isDigit

/-- A front in the class `p` followed by a front in the class `q`, and the rest. -/
def takeRuns (p q : Char → Bool) (cs : List Char) : List Char × List Char :=
  let rest := cs.dropWhile p
  (cs.takeWhile p ++ rest.takeWhile q, rest.dropWhile q)

/-- The text goes on with a lower-case letter. -/
def startsLower : List Char → Bool
  | [] => false
  | c :: _ => c.isLower

/-- The word that starts at the word character `c`, before `cs`, and what follows the word. -/
def firstWord (c : Char) (cs : List Char) : List Char × List Char :=
  if c.isUpper then
    let capitals := cs.takeWhile Char.isUpper
    let rest := cs.dropWhile Char.isUpper
    if startsLower rest then
      match capitals.getLast? with
      | none =>
        let (word, rest) := takeRuns Char.isLower Char.isDigit rest
        (c :: word, rest)
      | some last => (c :: capitals.dropLast, last :: rest)
    else
      let (word, rest) := takeRuns Char.isUpper Char.isDigit cs
      (c :: word, rest)
  else if c.isLower then
    let (word, rest) := takeRuns Char.isLower Char.isDigit cs
    (c :: word, rest)
  else
    let (word, rest) := takeRuns Char.isDigit Char.isLower cs
    (c :: word, rest)

theorem takeRuns_append (p q : Char → Bool) (cs : List Char) :
    (takeRuns p q cs).1 ++ (takeRuns p q cs).2 = cs := by
  simp [takeRuns, List.append_assoc, List.takeWhile_append_dropWhile]

theorem firstWord_ne_nil (c : Char) (cs : List Char) : (firstWord c cs).1 ≠ [] := by
  unfold firstWord
  split
  · dsimp only
    split
    · split <;> simp
    · simp
  · split <;> simp

/-- A word and what follows it make up the text it was taken from. -/
theorem firstWord_append (c : Char) (cs : List Char) :
    (firstWord c cs).1 ++ (firstWord c cs).2 = c :: cs := by
  unfold firstWord
  split
  · dsimp only
    split
    · split
      · rename_i h
        have hcap : cs.takeWhile Char.isUpper = [] := by simpa using h
        have hcs : cs.dropWhile Char.isUpper = cs := by
          have := List.takeWhile_append_dropWhile (p := Char.isUpper) (l := cs)
          rwa [hcap, List.nil_append] at this
        simp [takeRuns_append, hcs]
      · rename_i last h
        obtain ⟨front, hfront⟩ := List.getLast?_eq_some_iff.1 h
        calc c :: (cs.takeWhile Char.isUpper).dropLast ++ last :: cs.dropWhile Char.isUpper
            = c :: (cs.takeWhile Char.isUpper ++ cs.dropWhile Char.isUpper) := by simp [hfront]
          _ = c :: cs := by rw [List.takeWhile_append_dropWhile]
    · simp [takeRuns_append]
  · split <;> simp [takeRuns_append]

/-- Taking a word off leaves a shorter text. -/
theorem firstWord_length_lt (c : Char) (cs : List Char) :
    (firstWord c cs).2.length < (c :: cs).length := by
  have happ := congrArg List.length (firstWord_append c cs)
  have hpos := List.length_pos_iff.2 (firstWord_ne_nil c cs)
  simp only [List.length_append] at happ
  omega

/-- The words of a text, in order. -/
def words : List Char → List (List Char)
  | [] => []
  | c :: cs =>
    if isWordChar c then
      (firstWord c cs).1 :: words (firstWord c cs).2
    else
      words cs
termination_by cs => cs.length
decreasing_by
  · exact firstWord_length_lt c cs
  · simp

/-- The words of a declared name. -/
def wordsOf (name : String) : List String :=
  (words name.toList).map String.ofList

end HostDecl
