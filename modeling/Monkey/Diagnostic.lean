/-
This file lists what can be wrong with the text of a program, with the sentence
that reports each.
-/

import Monkey.Text.Quoted
import Monkey.Token

namespace Monkey

/-- Why a statement could not be read. -/
inductive Diagnostic where
  /-- One particular token had to follow and another one does. -/
  | unexpectedToken (expected got : Tag)
  /-- An expression had to start, and no expression starts with this token. -/
  | noOperand (found : Tag)
  /-- A run of digits does not fit an integer. -/
  | invalidInteger (digits : String)
deriving DecidableEq

/-- The sentence that reports a diagnostic. -/
def Diagnostic.message : Diagnostic → String
  | unexpectedToken expected got => "expected token=" ++ expected.name ++ " got=" ++ got.name
  | noOperand found => "no prefix parse function for " ++ found.name ++ " found"
  | invalidInteger digits => "could not parse " ++ Text.quoted digits ++ " as integer"

end Monkey
