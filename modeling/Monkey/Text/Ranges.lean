/-
This file gives classes of characters as tables: a class is the list of its
ranges of code points, both ends included.
-/

namespace Monkey.Text

/-- Whether a character lies in one of the ranges. -/
def within (ranges : List (Nat × Nat)) (character : Char) : Bool :=
  ranges.any fun range => range.1 ≤ character.toNat && character.toNat ≤ range.2

end Monkey.Text
