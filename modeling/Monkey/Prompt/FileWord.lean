/-
This file finds the file name that is being typed at the end of a text, as a
shell would: an unclosed quote starts one, and otherwise the last character with
a meaning to a shell ends what stands before, unless a backslash stands in front
of it. Places are counted in bytes.
-/

namespace Monkey.Prompt

/-- The number of bytes of some characters. -/
def byteCount : List Char → Nat
  | [] => 0
  | character :: rest => character.utf8Size + byteCount rest

/-! ### Quotes -/

/-- Whether the text so far is inside quotes, and if so where their inside starts. -/
inductive Quoting where
  | bare
  | bareEscape
  | single (start : Nat)
  | double (start : Nat)
  | doubleEscape (start : Nat)

namespace Quoting

/-- The quoting after one more character, which ends at the byte `after`. -/
def next (after : Nat) : Quoting → Char → Quoting
  | bare, '"' => double after
  | bare, '\'' => single after
  | bare, '\\' => bareEscape
  | bare, _ => bare
  | bareEscape, _ => bare
  | single _, '\'' => bare
  | single start, _ => single start
  | double _, '"' => bare
  | double start, '\\' => doubleEscape start
  | double start, _ => double start
  | doubleEscape start, _ => double start

/-- Where the inside of the open quotes starts. -/
def start? : Quoting → Option Nat
  | bare | bareEscape => none
  | single start | double start | doubleEscape start => some start

end Quoting

/-- The quoting at the end of a text that starts at the byte `place`. -/
def quotingFrom (place : Nat) (quoting : Quoting) : List Char → Quoting
  | [] => quoting
  | character :: rest =>
    let after := place + character.utf8Size
    quotingFrom after (quoting.next after character) rest

/-! ### File names -/

/-- The characters with a meaning to a shell. -/
def shellCharacters : List Char :=
  [' ', '\t', '\n', '"', '\\', '\'', '`', '@', '$', '>', '<', '=', ';', '|', '&', '{', '(', '\x00']

/-- The last file name of a text, both from the end to the start. -/
def reversedFileName : List Char → List Char
  | [] => []
  | character :: rest =>
    if shellCharacters.contains character then
      match rest with
      | '\\' :: others => character :: '\\' :: reversedFileName others
      | _ => []
    else
      character :: reversedFileName rest

/-- Where the file name at the end of a text starts. -/
def fileNameStart (text : List Char) : Nat :=
  match (quotingFrom 0 .bare text).start? with
  | some start => start
  | none => byteCount text - byteCount (reversedFileName text.reverse)

end Monkey.Prompt
