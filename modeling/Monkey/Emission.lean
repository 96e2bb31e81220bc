/-
This file is what the interpreter writes. Each piece goes to one of two places,
and pieces are kept in the order in which they are written.
-/

namespace Monkey

/-- A piece of text that is written. -/
inductive Emission where
  /-- To the standard output. -/
  | output (text : String)
  /-- To the standard error. -/
  | complaint (text : String)
deriving DecidableEq

namespace Emission

/-- A line on the standard output. -/
def outputLine (text : String) : Emission :=
  output (text ++ "\n")

/-- A line on the standard error. -/
def complaintLine (text : String) : Emission :=
  complaint (text ++ "\n")

/-- All that goes to the standard output. -/
def outputs (emissions : List Emission) : String :=
  String.join (emissions.map fun
    | output text => text
    | complaint _ => "")

/-- All that goes to the standard error. -/
def complaints (emissions : List Emission) : String :=
  String.join (emissions.map fun
    | output _ => ""
    | complaint text => text)

end Emission

end Monkey
