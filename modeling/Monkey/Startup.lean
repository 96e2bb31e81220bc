/-
This file evaluates the files that the options name before anything else. They
are loaded in order into one session, and the first that fails is the last.
-/

import Monkey.Loading
import Monkey.Options

namespace Monkey

/-- What comes after the files of the options. -/
inductive Startup where
  | prompt
  | exit
  | failed
deriving DecidableEq, Inhabited

/-- What starting up comes to. -/
structure Started where
  startup : Startup
  session : Session
  emissions : List Emission

/-- Loads files in order, up to the first that fails. -/
def Session.loadAll (session : Session) (depth : Nat) (showsValues : Bool) :
    List (String × Contents) → Option Loaded
  | [] => some ⟨session, [], true⟩
  | (name, contents) :: rest => do
    let loaded ← session.load depth showsValues name contents
    if loaded.succeeded then
      let others ← loaded.session.loadAll depth showsValues rest
      return ⟨others.session, loaded.emissions ++ others.emissions, others.succeeded⟩
    else
      return loaded

namespace Options

/-- What is loaded first, each with its name: the files, or without a prompt and without files
the whole input. -/
def sources (options : Options) (read : String → Contents) (input : Contents) :
    List (String × Contents) :=
  if options.noInteractive && options.files.isEmpty then [("stdin", input)]
  else options.files.map fun file => (file, read file)

/-- Starts up. Without a prompt every value is shown, and before a prompt only errors are. -/
def start (options : Options) (depth : Nat) (read : String → Contents) (input : Contents)
    (session : Session) : Option Started := do
  let loaded ← session.loadAll depth options.noInteractive (options.sources read input)
  let startup :=
    if !loaded.succeeded then Startup.failed
    else if options.noInteractive then .exit
    else .prompt
  return ⟨startup, loaded.session, loaded.emissions⟩

end Options

end Monkey
