/-
This file answers the texts of the prompt in a session. A command line runs its
command, and any other text is a program: its value is shown, or the report on
what is wrong with it.
-/

import Monkey.Command
import Monkey.Loading

namespace Monkey

/-- What answering one text comes to. -/
structure Answer where
  session : Session
  emissions : List Emission
  /-- Whether the prompt goes on. -/
  continues : Bool

namespace Session

/-- Runs a command. Files are read by `read`. -/
def command (session : Session) (depth : Nat) (read : String → Contents) (argument : String) :
    Command → Option Answer
  | .help => some ⟨session, [.output Command.usage], true⟩
  | .load => do
    let loaded ← session.load depth true argument (read argument)
    return ⟨loaded.session, loaded.emissions, true⟩
  | .ast =>
    match Program.parse argument with
    | ⟨program, []⟩ => some ⟨session, [.outputLine program.text], true⟩
    | ⟨_, diagnostics⟩ => some ⟨session, [report diagnostics], true⟩
  | .reset => some ⟨session.reset, [], true⟩
  | .quit => some ⟨session, [], false⟩

/-- Answers one text. -/
def answer (session : Session) (depth : Nat) (read : String → Contents) (text : String) :
    Option Answer :=
  match CommandLine.parse? text with
  | some (.run command argument) => session.command depth read argument command
  | some (.missingArgument command) =>
    let complaint := "command :" ++ command.longName ++ " expects an argument"
    some ⟨session, [.complaintLine complaint], true⟩
  | some (.unknown name) =>
    some ⟨session, [.complaintLine ("unknown command ':" ++ name ++ "', try :help")], true⟩
  | none => do
    match ← session.run depth text with
    | (.value value, after) => return ⟨after, [.outputLine value.text], true⟩
    | (.silence, after) => return ⟨after, [], true⟩
    | (.refusal diagnostics, after) => return ⟨after, [report diagnostics], true⟩

end Session

end Monkey
