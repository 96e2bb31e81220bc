/-
This file is a session: one scope that is used for many inputs, so that what one
input binds is seen by the next. An input with diagnostics is not evaluated at
all. The value of an input is that of its last statement, except that a binding
shows none; an error or an early return always shows its value.

A session may have a flag that interrupts the evaluation of an input. The flag is
lowered before every evaluation, so only raising it during one counts.
-/

import Monkey.Evaluation
import Monkey.Program.Parser

namespace Monkey

/-- What lasts from one input to the next. -/
structure Session where
  store : Store
  /-- The scope that the inputs are evaluated in. -/
  scope : ScopeId
  /-- The flag that interrupts an evaluation, if there is one, and when it will be raised. -/
  signal : Option Signal
deriving Inhabited

/-- What an input comes to. -/
inductive Reply where
  | value (value : Value)
  | silence
  | refusal (diagnostics : List Diagnostic)
deriving Inhabited

/-- Whether a program shows the value that it finished with: its last statement is no binding. -/
def Program.showsValue (program : Program) : Bool :=
  match program.statements.getLast? with
  | none | some (.binding _ _) => false
  | some _ => true

namespace Session

/-- A session without bindings. -/
def opening (signal : Option Signal) : Session :=
  let (scope, store) := Store.empty.create
  ⟨store, scope, signal⟩

/-- A session that cannot be interrupted. -/
def plain : Session := opening none

/-- A session with a flag that nobody raises while it evaluates. -/
def interruptible : Session := opening (some (.undisturbed false))

/-- Forgets every binding: the inputs to come are evaluated in a new scope. -/
def reset (session : Session) : Session :=
  let (scope, store) := session.store.create
  { session with store, scope }

/-- Raises the flag, if there is one. -/
def raise (session : Session) : Session :=
  { session with signal := session.signal.map Signal.raise }

/-- What a name is bound to. -/
def get? (session : Session) (name : String) : Option Value :=
  session.store.get? session.scope name

/-- The names with a given stem that are bound. -/
def namesWithStem (session : Session) (stem : String) : List String :=
  session.store.namesWithStem session.scope stem

/-- The machine that an evaluation starts from. A flag raised before it does not count. -/
def machine (session : Session) : Machine :=
  ⟨session.store, session.signal.map Signal.lowered, none⟩

/-- The session after an evaluation that left a machine. -/
def after (session : Session) (machine : Machine) : Session :=
  { session with store := machine.store, signal := machine.signal }

/-- Evaluates a program in the scope of the session. -/
def evaluate (session : Session) (depth : Nat) (program : Program) :
    Option (Completion × Session) := do
  let (completion, machine) ← program.run depth session.scope session.machine
  return (completion, session.after machine)

/-- Takes one input. -/
def run (session : Session) (depth : Nat) (source : String) : Option (Reply × Session) :=
  match Program.parse source with
  | ⟨program, []⟩ => do
    match ← session.evaluate depth program with
    | (.stopped value, after) => return (.value value, after)
    | (.finished value, after) =>
      return (if program.showsValue then .value value else .silence, after)
  | ⟨_, diagnostics⟩ => some (.refusal diagnostics, session)

end Session

end Monkey
