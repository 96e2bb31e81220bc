/-
This file splits bytes into lines. A line ends with a line feed, which belongs to
it, and the last one may do without.
-/

namespace Monkey.Text

/-- The line feed. -/
def lineFeed : UInt8 := 0x0a

/-- The lines of some bytes, in order. None of them is empty. -/
def splitLines : List UInt8 → List (List UInt8)
  | [] => []
  | byte :: rest =>
    if byte = lineFeed then [byte] :: splitLines rest
    else
      match splitLines rest with
      | [] => [[byte]]
      | line :: others => (byte :: line) :: others

end Monkey.Text
