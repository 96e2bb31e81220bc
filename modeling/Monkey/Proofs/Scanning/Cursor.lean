/-
This file scans in place. A cursor keeps the whole input with the byte under
examination and two positions, and a token's text is cut out of the input between
two positions. A cut that does not lie within the input gives nothing.

A cursor stands at the start of what is left of the input. From there it gives
the token that is scanned of what is left and stands at what is left after it, so
no cut is ever out of bounds, and a zero byte is never taken for the end. The
main statement is that scanning divides every input into blanks and longest
tokens, and gives the end of the input for ever after the last of them.
-/

import Monkey.Proofs.Scanning.Layout

namespace Monkey.Token

/-- A place in an input that is scanned from front to back. -/
structure Cursor where
  input : List UInt8
  /-- The byte at the position, and zero past the end. -/
  current : UInt8
  position : Nat
  /-- The position of the byte after the current one. -/
  upcoming : Nat

namespace Cursor

variable (cursor : Cursor)

/-! ### Moving on -/

/-- The byte after the current one, and zero past the end. -/
def peek : UInt8 :=
  (cursor.input[cursor.upcoming]?).getD 0

/-- Moves on by one byte. -/
def advance : Cursor where
  input := cursor.input
  current := cursor.peek
  position := cursor.upcoming
  upcoming := if cursor.upcoming ≤ cursor.input.length then cursor.upcoming + 1 else cursor.upcoming

/-- Moving on goes towards the end of the input, or past it, where it reads zeros. -/
theorem advance_lt_or_past :
    cursor.input.length + 1 - cursor.advance.upcoming <
        cursor.input.length + 1 - cursor.upcoming ∨
      cursor.advance.upcoming = cursor.upcoming ∧ cursor.advance.current = 0 ∧
        cursor.input.length < cursor.advance.position := by
  by_cases inside : cursor.upcoming ≤ cursor.input.length
  · refine .inl ?_
    simp only [advance, if_pos inside]
    omega
  · refine .inr ⟨if_neg inside, ?_, Nat.not_le.mp inside⟩
    simp only [advance, peek]
    rw [List.getElem?_eq_none (Nat.le_of_lt (Nat.not_le.mp inside))]
    rfl

/-- Before the first byte of an input. -/
def start (input : List UInt8) : Cursor :=
  advance ⟨input, 0, 0, 0⟩

/-- Moves on over blanks. -/
def skipBlanks (cursor : Cursor) : Cursor :=
  if isBlank cursor.current then skipBlanks cursor.advance else cursor
termination_by (cursor.input.length + 1 - cursor.upcoming, if isBlank cursor.current then 1 else 0)
decreasing_by
  rename_i blank
  obtain closer | ⟨same, zero, _⟩ := cursor.advance_lt_or_past
  · exact .left _ _ closer
  · simp only [same, zero, if_pos blank]
    exact .right _ Nat.one_pos

/-- Moves on over bytes of one class, up to the end of the input. -/
def skipWhile (accepts : UInt8 → Bool) (cursor : Cursor) : Cursor :=
  if cursor.position < cursor.input.length ∧ accepts cursor.current then
    skipWhile accepts cursor.advance
  else cursor
termination_by (cursor.input.length + 1 - cursor.upcoming,
  if cursor.position < cursor.input.length then 1 else 0)
decreasing_by
  rename_i goes
  obtain closer | ⟨same, _, past⟩ := cursor.advance_lt_or_past
  · exact .left _ _ closer
  · have stops : ¬ cursor.advance.position < cursor.advance.input.length :=
      Nat.not_lt.mpr (Nat.le_of_lt past)
    simp only [same, if_pos goes.1, if_neg stops]
    exact .right _ Nat.one_pos

/-! ### Tokens -/

/-- Cuts out the bytes from one position up to another one, if both are within the input. -/
def slice? (first last : Nat) : Option (List UInt8) :=
  if first ≤ last ∧ last ≤ cursor.input.length then
    some ((cursor.input.drop first).take (last - first))
  else none

/-- The token whose text reaches from the position of this cursor up to that of another one, where
scanning goes on. -/
def upTo? (tag : String → Tag) (last : Cursor) : Option (Token × Cursor) := do
  let bytes ← cursor.slice? cursor.position last.position
  return (⟨tag (spelling bytes), spelling bytes⟩, last)

/-- The token at a cursor that stands at no blank, and the cursor after it. -/
def tokenHere? : Option (Token × Cursor) :=
  if cursor.current = 0 ∧ cursor.input.length ≤ cursor.position then
    some (endOfInput, cursor)
  else if cursor.current = equalsSign ∧ cursor.peek = equalsSign then
    cursor.upTo? (fun _ => .equal) cursor.advance.advance
  else if cursor.current = bangSign ∧ cursor.peek = equalsSign then
    cursor.upTo? (fun _ => .notEqual) cursor.advance.advance
  else if isLetter cursor.current then
    cursor.upTo? wordTag (cursor.skipWhile isLetter)
  else if isDigit cursor.current then
    cursor.upTo? (fun _ => .integer) (cursor.skipWhile isDigit)
  else
    some (⟨signTag (character cursor.current), spelling [cursor.current]⟩, cursor.advance)

/-- The next token, or the end of the input. Gives nothing if a text were cut out of bounds. -/
def next? : Option (Token × Cursor) :=
  cursor.skipBlanks.tokenHere?

/-- The first `count` answers of asking for one token after the other. -/
def answers? : Nat → Cursor → Option (List Token)
  | 0, _ => some []
  | count + 1, cursor => do
    let (token, after) ← cursor.next?
    return token :: (← answers? count after)

/-! ### What a cursor stands at -/

/-- The cursor stands in the input where only this is left of it. -/
structure Stands (input left : List UInt8) (cursor : Cursor) : Prop where
  same : cursor.input = input
  within : cursor.position ≤ input.length
  drop : input.drop cursor.position = left
  upcoming : cursor.upcoming = cursor.position + 1
  current : cursor.current = left.headD 0

theorem stands_start (input : List UInt8) : Stands input input (start input) where
  same := rfl
  within := Nat.zero_le _
  drop := rfl
  upcoming := by simp [start, advance]
  current := by cases input <;> rfl

namespace Stands

variable {cursor last : Cursor} {input left span rest : List UInt8} {byte : UInt8}

theorem length (stands : Stands input left cursor) :
    cursor.position + left.length = input.length := by
  rw [← stands.drop, List.length_drop]
  exact Nat.add_sub_of_le stands.within

theorem peek (stands : Stands input (byte :: rest) cursor) : cursor.peek = rest.headD 0 := by
  have next : rest = input.drop cursor.upcoming := by
    rw [stands.upcoming, ← List.drop_drop, stands.drop]
    rfl
  unfold Cursor.peek
  rw [stands.same, ← List.head?_drop, ← next, List.headD_eq_head?_getD]

theorem advance (stands : Stands input (byte :: rest) cursor) :
    Stands input rest cursor.advance := by
  have inside : cursor.upcoming ≤ input.length := by
    have := stands.length
    rw [stands.upcoming]
    simp only [List.length_cons] at this
    omega
  refine ⟨stands.same, inside, ?_, ?_, stands.peek⟩
  · show input.drop cursor.upcoming = rest
    rw [stands.upcoming, ← List.drop_drop, stands.drop]
    rfl
  · simp only [Cursor.advance, stands.same, if_pos inside]

theorem skipBlanks (stands : Stands input left cursor) :
    Stands input (left.dropWhile isBlank) cursor.skipBlanks := by
  induction left generalizing cursor with
  | nil =>
    rw [Cursor.skipBlanks, stands.current, if_neg (by decide)]
    exact stands
  | cons byte rest inductionHypothesis =>
    rw [Cursor.skipBlanks, stands.current, List.headD_cons]
    by_cases blank : isBlank byte
    · rw [if_pos blank, List.dropWhile_cons_of_pos blank]
      exact inductionHypothesis stands.advance
    · rw [if_neg blank, List.dropWhile_cons_of_neg blank]
      exact stands

theorem skipWhile (accepts : UInt8 → Bool) (stands : Stands input left cursor) :
    Stands input (left.dropWhile accepts) (cursor.skipWhile accepts) := by
  induction left generalizing cursor with
  | nil =>
    have ended : ¬ cursor.position < input.length :=
      Nat.not_lt.mpr (Nat.le_of_eq stands.length.symm)
    rw [Cursor.skipWhile, stands.same, if_neg fun goes => ended goes.1]
    exact stands
  | cons byte rest inductionHypothesis =>
    have inside : cursor.position < input.length := by
      have := stands.length
      simp only [List.length_cons] at this
      omega
    rw [Cursor.skipWhile, stands.current, List.headD_cons, stands.same]
    by_cases accepted : accepts byte
    · rw [if_pos ⟨inside, accepted⟩, List.dropWhile_cons_of_pos accepted]
      exact inductionHypothesis stands.advance
    · rw [if_neg fun goes => accepted goes.2, List.dropWhile_cons_of_neg accepted]
      exact stands

/-- What lies between two cursors is within the input, and is what the first has left and the
second has not. -/
theorem slice (stands : Stands input (span ++ rest) cursor) (after : Stands input rest last) :
    cursor.slice? cursor.position last.position = some span := by
  have here := stands.length
  have there := after.length
  rw [List.length_append] at here
  have apart : last.position - cursor.position = span.length := by omega
  unfold slice?
  rw [stands.same, if_pos ⟨by omega, after.within⟩, stands.drop, apart, List.take_left]

theorem upTo (stands : Stands input (span ++ rest) cursor) (after : Stands input rest last)
    (tag : String → Tag) :
    cursor.upTo? tag last = some (⟨tag (spelling span), spelling span⟩, last) := by
  unfold upTo?
  rw [stands.slice after]
  rfl

/-- A double sign is cut out of the input. -/
theorem double {sign : UInt8} {others : List UInt8}
    (stands : Stands input (sign :: equalsSign :: others) cursor) (tag : Tag) :
    cursor.upTo? (fun _ => tag) cursor.advance.advance =
        some (⟨tag, spelling [sign, equalsSign]⟩, cursor.advance.advance) ∧
      Stands input others cursor.advance.advance := by
  have whole : Stands input ([sign, equalsSign] ++ others) cursor := stands
  exact ⟨whole.upTo stands.advance.advance _, stands.advance.advance⟩

/-- A run of bytes of one class is cut out of the input. -/
theorem run {accepts : UInt8 → Bool} (stands : Stands input (byte :: rest) cursor)
    (accepted : accepts byte) (tag : String → Tag) :
    cursor.upTo? tag (cursor.skipWhile accepts) =
        some (⟨tag (spelling (byte :: rest.takeWhile accepts)),
          spelling (byte :: rest.takeWhile accepts)⟩, cursor.skipWhile accepts) ∧
      Stands input (rest.dropWhile accepts) (cursor.skipWhile accepts) := by
  have after := stands.skipWhile accepts
  rw [List.dropWhile_cons_of_pos accepted] at after
  refine ⟨upTo ?_ after tag, after⟩
  rw [List.cons_append, List.takeWhile_append_dropWhile]
  exact stands

/-- At no blank, a cursor gives the token that is scanned there. -/
theorem tokenHere (stands : Stands input (byte :: rest) cursor) :
    ∃ after, cursor.tokenHere? = some ((lexeme byte rest).1, after) ∧
      Stands input (lexeme byte rest).2 after := by
  have unended : ¬ (cursor.current = 0 ∧ cursor.input.length ≤ cursor.position) := by
    have := stands.length
    rw [stands.same]
    simp only [List.length_cons] at this
    omega
  have current : cursor.current = byte := stands.current
  have doubled : cursor.peek = equalsSign ↔ rest.head? = some equalsSign := by
    rw [stands.peek]
    cases rest with
    | nil => decide
    | cons second others => simp
  unfold tokenHere? lexeme
  rw [if_neg unended]
  simp only [current, doubled]
  by_cases equal : byte = equalsSign ∧ rest.head? = some equalsSign
  · obtain ⟨rfl, next⟩ := equal
    obtain ⟨others, rfl⟩ := List.head?_eq_some_iff.mp next
    exact ⟨_, stands.double .equal⟩
  by_cases notEqual : byte = bangSign ∧ rest.head? = some equalsSign
  · obtain ⟨rfl, next⟩ := notEqual
    obtain ⟨others, rfl⟩ := List.head?_eq_some_iff.mp next
    exact ⟨_, stands.double .notEqual⟩
  rw [if_neg equal, if_neg notEqual]
  by_cases letter : isLetter byte
  · rw [if_pos letter, if_pos letter]
    exact ⟨_, stands.run letter wordTag⟩
  by_cases digit : isDigit byte
  · rw [if_neg letter, if_pos digit, if_neg letter, if_pos digit]
    exact ⟨_, stands.run digit fun _ => .integer⟩
  · rw [if_neg letter, if_neg digit, if_neg letter, if_neg digit, if_neg equal, if_neg notEqual]
    exact ⟨_, rfl, stands.advance⟩

/-- A cursor gives what is scanned next of what it has left. -/
theorem next (stands : Stands input left cursor) :
    ∃ after, cursor.next? = some ((Token.next left).1, after) ∧
      Stands input (Token.next left).2 after := by
  have skipped := stands.skipBlanks
  unfold next? Token.next
  split
  · rename_i nothing
    rw [nothing] at skipped
    refine ⟨cursor.skipBlanks, if_pos ⟨skipped.current, ?_⟩, skipped⟩
    rw [skipped.same]
    exact Nat.le_of_eq skipped.length.symm
  · rename_i found
    rw [found] at skipped
    exact skipped.tokenHere

/-- Whatever is asked of a cursor, nothing is cut out of bounds. -/
theorem answers (stands : Stands input left cursor) (count : Nat) :
    answers? count cursor = some (Token.answers count left) := by
  induction count generalizing left cursor with
  | zero => rfl
  | succ count inductionHypothesis =>
    obtain ⟨after, found, standsAfter⟩ := stands.next
    simp [answers?, Token.answers, found, inductionHypothesis standsAfter]

end Stands

end Cursor

/-- The tokens of an input are those that it is divided into, together with blanks, when each token
is the longest one where it starts. Asked for one token after the other, scanning in place cuts
nothing out of bounds, and answers with these tokens and then with the end of the input. -/
theorem scanning_partitions (bytes : List UInt8) :
    (∀ tokens, scanBytes bytes = tokens ↔ Layout bytes tokens) ∧
      ∀ count, Cursor.answers? count (Cursor.start bytes) = some (answers count bytes) ∧
        answers count bytes =
          (scanBytes bytes ++ List.replicate count endOfInput).take count :=
  ⟨scanBytes_eq_iff bytes, fun count =>
    ⟨(Cursor.stands_start bytes).answers count, answers_eq count bytes⟩⟩

end Monkey.Token
