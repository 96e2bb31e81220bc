/-
This file cuts a source into tokens. A source is read as its UTF-8 bytes: blanks
separate tokens and belong to none, a run of letters is a word, a run of digits
is a number, `==` and `!=` are one token each, and every other byte is a token
by itself. Each token is the longest possible at its start. A byte outside the
alphabet is an illegal token, and one that is not ASCII is shown as the
replacement character.

`next` takes one token and leaves the rest, and answers the end of input forever
once nothing is left; `scanBytes` is the list of all tokens before that.
-/

import Monkey.Token

namespace Monkey.Token

/-! ### Classes of bytes -/

/-- Space, tab, line feed and carriage return separate tokens. -/
def isBlank (byte : UInt8) : Bool :=
  byte == 0x20 || byte == 0x09 || byte == 0x0a || byte == 0x0d

/-- Words are made of ASCII letters, the underscore and the question mark. -/
def isLetter (byte : UInt8) : Bool :=
  (0x61 ≤ byte && byte ≤ 0x7a) || (0x41 ≤ byte && byte ≤ 0x5a) || byte == 0x5f || byte == 0x3f

/-- Numbers are made of ASCII digits. -/
def isDigit (byte : UInt8) : Bool :=
  0x30 ≤ byte && byte ≤ 0x39

/-- The byte of the equals sign, which joins a sign before it. -/
def equalsSign : UInt8 := 0x3d

/-- The byte of the exclamation mark. -/
def bangSign : UInt8 := 0x21

/-- How one byte is shown: as its ASCII character, or as the replacement character. -/
def character (byte : UInt8) : Char :=
  if byte < 0x80 then Char.ofUInt8 byte else '\uFFFD'

/-- The text of a run of bytes, each shown on its own. -/
def spelling (bytes : List UInt8) : String :=
  String.ofList (bytes.map character)

/-! ### One token -/

/-- The longest token that starts with the byte `head`, which is no blank, and what is left
after it. -/
def lexeme (head : UInt8) (rest : List UInt8) : Token × List UInt8 :=
  if isLetter head then
    let word := spelling (head :: rest.takeWhile isLetter)
    (⟨wordTag word, word⟩, rest.dropWhile isLetter)
  else if isDigit head then
    (⟨.integer, spelling (head :: rest.takeWhile isDigit)⟩, rest.dropWhile isDigit)
  else if head = equalsSign ∧ rest.head? = some equalsSign then
    (⟨.equal, "=="⟩, rest.tail)
  else if head = bangSign ∧ rest.head? = some equalsSign then
    (⟨.notEqual, "!="⟩, rest.tail)
  else
    (⟨signTag (character head), spelling [head]⟩, rest)

/-- The first token of some bytes and the bytes after it. -/
def next (bytes : List UInt8) : Token × List UInt8 :=
  match bytes.dropWhile isBlank with
  | [] => (endOfInput, [])
  | head :: rest => lexeme head rest

/-- The first `count` answers of asking for one token after the other. -/
def answers : Nat → List UInt8 → List Token
  | 0, _ => []
  | count + 1, bytes => (next bytes).1 :: answers count (next bytes).2

/-! ### All tokens -/

/-- A token never gives bytes back. -/
theorem length_lexeme_le (head : UInt8) (rest : List UInt8) :
    (lexeme head rest).2.length ≤ rest.length := by
  unfold lexeme
  split
  · exact (List.dropWhile_sublist isLetter).length_le
  split
  · exact (List.dropWhile_sublist isDigit).length_le
  split
  · simp
  split
  · simp
  · exact Nat.le_refl _

/-- The tokens of some bytes, in order. -/
def scanBytes (bytes : List UInt8) : List Token :=
  match _ : bytes.dropWhile isBlank with
  | [] => []
  | head :: rest => (lexeme head rest).1 :: scanBytes (lexeme head rest).2
termination_by bytes.length
decreasing_by
  rename_i found
  have shorter : (bytes.dropWhile isBlank).length ≤ bytes.length :=
    (List.dropWhile_sublist isBlank).length_le
  have consumed := length_lexeme_le head rest
  rw [found, List.length_cons] at shorter
  omega

/-- The UTF-8 bytes of a source. -/
def bytesOf (source : String) : List UInt8 :=
  source.toByteArray.data.toList

/-- The tokens of a source, in order. -/
def scan (source : String) : List Token :=
  scanBytes (bytesOf source)

end Monkey.Token
