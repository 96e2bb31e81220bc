/-
This file reads integers. A numeral is an optional sign and one or more ASCII
digits, with any number of leading zeros, and it has a value only if that value
fits 64 bits.
-/

namespace Monkey.Numeral

/-- The number that decimal digits stand for. No digit at all stands for none. -/
def magnitude? (digits : List Char) : Option Nat :=
  if digits ≠ [] ∧ digits.all Char.isDigit then some (Nat.ofDigitChars 10 digits 0) else none

/-- An integer as a 64-bit word, if it fits one. -/
def word? (value : Int) : Option Int64 :=
  if Int64.minValue.toInt ≤ value ∧ value ≤ Int64.maxValue.toInt then some (Int64.ofInt value)
  else none

/-- The value of a numeral. -/
def read? (text : String) : Option Int64 :=
  match text.toList with
  | '+' :: digits => (magnitude? digits).bind fun value => word? value
  | '-' :: digits => (magnitude? digits).bind fun value => word? (-value)
  | digits => (magnitude? digits).bind fun value => word? value

end Monkey.Numeral
