/-
This file is the prompt. Lines are gathered into texts, and a whole text is
answered in the session unless it is blank. The prompt ends with the command to
quit, with the end of the input, and with a line that cannot be read; but if
lines are being gathered, such a line only ends the gathering.

The prompt takes one line at a time, so it does the same whether the lines are
there from the start or are typed as it goes.
-/

import Monkey.Prompt.Answer
import Monkey.Prompt.Gathering

namespace Monkey

/-- A line of the input, as it was read. -/
inductive Line where
  | text (text : String)
  | unreadable
deriving DecidableEq, Inhabited

/-- A prompt between two lines. -/
structure Prompt where
  session : Session
  /-- The text that is being gathered. -/
  started : Option String
  /-- The texts answered so far, the latest first. -/
  history : List String
  /-- Whether it takes no more lines. -/
  ended : Bool
deriving Inhabited

namespace Prompt

/-- A prompt before its first line. -/
def ofSession (session : Session) : Prompt := ⟨session, none, [], false⟩

/-- The complaint about a line that cannot be read. -/
def unreadableLine : Emission :=
  .complaintLine
    "error: Io(Error \x7b kind: InvalidData, message: \"stream did not contain valid UTF-8\" \x7d)"

/-- Takes a whole text. -/
def submit (prompt : Prompt) (depth : Nat) (read : String → Contents) (text : String) :
    Option (Prompt × List Emission) :=
  if Text.isBlank text then
    some ({ prompt with started := none }, [])
  else do
    let answer ← prompt.session.answer depth read text
    return (⟨answer.session, none, text :: prompt.history, !answer.continues⟩, answer.emissions)

/-- Takes one line. -/
def feed (prompt : Prompt) (depth : Nat) (read : String → Contents) :
    Line → Option (Prompt × List Emission)
  | .text line =>
    let text := extend prompt.started line
    if needsMore text then some ({ prompt with started := some text }, [])
    else prompt.submit depth read text
  | .unreadable =>
    match prompt.started with
    | none => some ({ prompt with ended := true }, [unreadableLine])
    | some text => do
      let (next, emissions) ← prompt.submit depth read text
      return (next, unreadableLine :: emissions)

/-- Takes the end of the input: the text that was started is whole now. -/
def close (prompt : Prompt) (depth : Nat) (read : String → Contents) :
    Option (Prompt × List Emission) := do
  match prompt.started with
  | none => return ({ prompt with ended := true }, [])
  | some text =>
    let (next, emissions) ← prompt.submit depth read text
    return ({ next with ended := true }, emissions)

/-- Takes lines until the prompt ends. -/
def feedAll (depth : Nat) (read : String → Contents) (prompt : Prompt) :
    List Line → Option (Prompt × List Emission)
  | [] => if prompt.ended then some (prompt, []) else prompt.close depth read
  | line :: rest =>
    if prompt.ended then some (prompt, [])
    else do
      let (next, emissions) ← prompt.feed depth read line
      let (last, others) ← feedAll depth read next rest
      return (last, emissions ++ others)

end Prompt

end Monkey
