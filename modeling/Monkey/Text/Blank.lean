/-
This file holds the white space of the prompt: the characters with the Unicode
property White_Space, which are more than the four bytes that separate tokens.
Command lines are trimmed and split by it, and a text of nothing else is blank.
-/

import Monkey.Text.Ranges

namespace Monkey.Text

/-- The code points with the property White_Space. -/
def whiteRanges : List (Nat × Nat) :=
  [(0x9, 0xd), (0x20, 0x20), (0x85, 0x85), (0xa0, 0xa0), (0x1680, 0x1680), (0x2000, 0x200a),
    (0x2028, 0x2029), (0x202f, 0x202f), (0x205f, 0x205f), (0x3000, 0x3000)]

/-- Whether a character is white space. -/
def isWhite (character : Char) : Bool :=
  within whiteRanges character

/-- The characters from the first one on that is no white space. -/
def trimStart (characters : List Char) : List Char :=
  characters.dropWhile isWhite

/-- The characters up to the last one that is no white space. -/
def trimEnd (characters : List Char) : List Char :=
  (characters.reverse.dropWhile isWhite).reverse

/-- The characters without white space at either end. -/
def trim (characters : List Char) : List Char :=
  trimEnd (trimStart characters)

/-- A text of white space alone, the empty text included. -/
def isBlank (text : String) : Bool :=
  text.toList.all isWhite

end Monkey.Text
