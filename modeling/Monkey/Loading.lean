/-
This file evaluates whole files in a session. A file that cannot be read, or
that has diagnostics, has failed and changes nothing; otherwise its value is
shown if values are wanted, or if it is an error. The report on diagnostics is
the one that the prompt gives too.
-/

import Monkey.Emission
import Monkey.Files
import Monkey.Session

namespace Monkey

/-! ### Reports -/

/-- The face above every report. -/
def face : String :=
  "\n" ++
  "  .--.  .-\"     \"-.  .--.\n" ++
  " / .. \\/  .-. .-.  \\/ .. \\\n" ++
  "| |  '|  /   Y   \\  |'  | |\n" ++
  "| \\   \\  \\ 0 | 0 /  /   / |\n" ++
  " \\ '- ,\\.-\"\"\"\"\"\"\"-./, -' /\n" ++
  "  ''-' /_   ^ ^   _\\ '-''\n" ++
  "      |  \\._   _./  |\n" ++
  "      \\   \\ '~' /   /\n" ++
  "       '._ '-=-' _.'\n" ++
  "          '-----'\n"

/-- The numbered lines of a report, from a given number on. -/
def numberedFrom : Nat → List Diagnostic → String
  | _, [] => ""
  | number, diagnostic :: rest =>
    "\t" ++ toString number ++ ". - " ++ diagnostic.message ++ "\n" ++
      numberedFrom (number + 1) rest

/-- The report on the diagnostics of one input. -/
def report (diagnostics : List Diagnostic) : Emission :=
  .output (face ++ "Woops! Looks like we ran into some monkey business here\n parser errors:\n" ++
    numberedFrom 0 diagnostics)

/-! ### Loading -/

/-- What loading a file comes to. -/
structure Loaded where
  session : Session
  emissions : List Emission
  succeeded : Bool

/-- The complaint about a file. -/
def failedToLoad (name : String) : String :=
  "failed to load file '" ++ name ++ "':"

/-- Evaluates what was read of a file. -/
def Session.load (session : Session) (depth : Nat) (showsValues : Bool) (name : String) :
    Contents → Option Loaded
  | .error failure =>
    some ⟨session, [.complaintLine (failedToLoad name ++ " " ++ failure.message)], false⟩
  | .ok source => do
    match ← session.run depth source with
    | (.value value, after) =>
      let shown := if showsValues || value.isError then [Emission.outputLine value.text] else []
      return ⟨after, shown, true⟩
    | (.silence, after) => return ⟨after, [], true⟩
    | (.refusal diagnostics, after) =>
      return ⟨after, [.complaintLine (failedToLoad name), report diagnostics], false⟩

end Monkey
