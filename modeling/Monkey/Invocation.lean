/-
This file is one invocation of the interpreter from beginning to end: the
arguments are read, the files loaded, and unless that was all the prompt answers
the lines of the input. What the invocation finds around it is a value: the
files it can read, the bytes of its input, and whether its history can be saved.

The history is saved when the prompt has ended, unless it is empty.
-/

import Monkey.Prompt
import Monkey.Startup
import Monkey.Text.Lines

namespace Monkey

/-! ### Texts -/

/-- The name and the number of this version. -/
def versionText : String := "monkey_interp 0.1.0\n"

def usageText : String := "Usage: monkey [OPTIONS] [FILES]...\n"

def helpText : String :=
  "A tree-walking interpreter and REPL for the Monkey expression language.\n\n" ++ usageText ++
  "\n" ++
  "Arguments:\n" ++
  "  [FILES]...  Files evaluated, in order, into the session before the prompt starts\n" ++
  "\n" ++
  "Options:\n" ++
  "  -n, --no-interactive  Evaluate the files (or stdin, when none are given), print each " ++
  "file's final value and exit without starting the prompt\n" ++
  "      --no-history      Neither read nor write the prompt history file\n" ++
  "  -h, --help            Print help\n" ++
  "  -V, --version         Print version\n"

/-- What is written when the arguments do not lead to options. -/
def Refusal.emission : Refusal → Emission
  | helpWanted => .output helpText
  | versionWanted => .output versionText
  | unknownArgument argument => complain ("unexpected argument '" ++ argument ++ "' found")
  | repeated option => complain ("the argument '" ++ option ++ "' cannot be used multiple times")
  | unwantedValue option => complain ("unexpected value in '" ++ option ++ "'")
  | emptyFile => complain "a value is required for '[FILES]...' but none was supplied"
where
  complain (reason : String) : Emission :=
    .complaint ("error: " ++ reason ++ "\n\n" ++ usageText ++
      "\nFor more information, try '--help'.\n")

/-- The exit status when the arguments do not lead to options. -/
def Refusal.status : Refusal → Nat
  | helpWanted | versionWanted => 0
  | _ => 2

/-- The exit status after the files are loaded, whether a prompt follows or not. -/
def Startup.status : Startup → Nat
  | failed => 1
  | prompt | exit => 0

/-! ### Lines of the input -/

/-- A line as the prompt takes it. -/
def Line.ofBytes (bytes : List UInt8) : Line :=
  match textOfBytes bytes with
  | .ok decoded => .text decoded
  | .error _ => .unreadable

/-- The lines of an input. -/
def Line.split (input : List UInt8) : List Line :=
  (Text.splitLines input).map Line.ofBytes

/-! ### The whole invocation -/

/-- What an invocation finds around it. -/
structure Surroundings where
  read : String → Contents
  input : List UInt8
  /-- Whether the history can be saved. -/
  savesHistory : Bool

/-- What an invocation leaves behind. -/
structure Ending where
  status : Nat
  emissions : List Emission

/-- The complaint about a history that cannot be saved. -/
def unsavedHistory : Emission :=
  .complaintLine "failed to save history file"

/-- The history that is to be saved when the prompt has ended. -/
def Options.savedHistory (options : Options) (prompt : Prompt) : List String :=
  if options.noHistory then [] else prompt.history

/-- Answers the input until the prompt ends, and saves the history. -/
def Options.converse (options : Options) (depth : Nat) (surroundings : Surroundings)
    (session : Session) : Option (List Emission) := do
  let prompt := Prompt.ofSession session
  let (last, emissions) ← prompt.feedAll depth surroundings.read (Line.split surroundings.input)
  if (options.savedHistory last).isEmpty || surroundings.savesHistory then
    return emissions
  else
    return emissions ++ [unsavedHistory]

/-- One invocation with some arguments. -/
def invoke (depth : Nat) (arguments : List String) (surroundings : Surroundings) :
    Option Ending :=
  match Options.parse arguments with
  | .error refusal => some ⟨refusal.status, [refusal.emission]⟩
  | .ok options => do
    let input := textOfBytes surroundings.input
    let started ← options.start depth surroundings.read input .interruptible
    if started.startup = .prompt then
      let conversed ← options.converse depth surroundings started.session
      return ⟨started.startup.status, started.emissions ++ conversed⟩
    else
      return ⟨started.startup.status, started.emissions⟩

end Monkey
