/-
This file quotes a text for a diagnostic. The text stands between double quotes;
a quote, a backslash and the common controls are written with a backslash, every
other character without a visible form of its own by its code point, and the
rest as it is.
-/

import Monkey.Text.Graphic

namespace Monkey.Text

/-- How one character is written between double quotes. -/
def escaped (character : Char) : List Char :=
  if character = '"' then ['\\', '"']
  else if character = '\\' then ['\\', '\\']
  else if character = '\n' then ['\\', 'n']
  else if character = '\r' then ['\\', 'r']
  else if character = '\t' then ['\\', 't']
  else if character = '\x00' then ['\\', '0']
  else if isGraphic character then [character]
  else ['\\', 'u', '{'] ++ Nat.toDigits 16 character.toNat ++ ['}']

/-- A text between double quotes, so that each character of it can be told. -/
def quoted (text : String) : String :=
  String.ofList ('"' :: text.toList.flatMap escaped ++ ['"'])

end Monkey.Text
