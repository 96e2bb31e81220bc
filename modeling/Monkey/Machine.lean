/-
This file is the state that a run works on: the store of scopes, the signal that
can interrupt the run, and a journal of what the run does, which is kept only
when it is asked for.

The signal is a flag that is raised from outside. A run looks at it from time to
time, and looking lowers it. When it is raised is part of the machine: for each
look to come, whether the flag is raised just before it.

The steps of a run are computations on this state. A step may also give nothing
at all, when the bound on the depth of its calls is met.
-/

import Monkey.Store

namespace Monkey

/-- The flag that interrupts a run, and when it will be raised again. -/
structure Signal where
  raised : Bool
  /-- For each look to come, whether the flag is raised just before it. -/
  arrivals : List Bool
deriving Inhabited

namespace Signal

/-- A flag that nobody raises from now on. -/
def undisturbed (raised : Bool) : Signal := ⟨raised, []⟩

/-- Lowers the flag. -/
def lowered (signal : Signal) : Signal := { signal with raised := false }

/-- Raises the flag. -/
def raise (signal : Signal) : Signal := { signal with raised := true }

end Signal

/-- What can happen during a run. -/
inductive Event where
  /-- The flag was looked at and found raised or lowered. -/
  | look (raised : Bool)
  /-- A statement starts. -/
  | statement (statement : Statement)
  /-- The evaluation of an expression starts. -/
  | expression (expression : Expression)
  /-- An operator, a condition or a call takes a value. -/
  | operand (value : Value)
  /-- A value is applied to arguments. -/
  | application (callee : Value) (arguments : List Value)
  /-- A name is bound. -/
  | binding (scope : ScopeId) (name : String) (value : Value)
  /-- A value starts on its way to the call or the program that it leaves. -/
  | leaving (value : Value)
  /-- An error is made. -/
  | failure (fault : Fault)

/-- What a run works on. -/
structure Machine where
  store : Store
  signal : Option Signal
  /-- What has happened, the latest first, if it is wanted. -/
  journal : Option (List Event)
deriving Inhabited

/-- A step of a run. -/
abbrev Run := StateT Machine Option

namespace Machine

/-- A machine that cannot be interrupted and keeps no journal. -/
def ofStore (store : Store) : Machine := ⟨store, none, none⟩

/-- Writes down an event. -/
def write (machine : Machine) (event : Event) : Machine :=
  { machine with journal := machine.journal.map (event :: ·) }

end Machine

namespace Run

/-- Gives nothing: the bound on the depth is met. -/
def exhausted {Result : Type} : Run Result :=
  fun _ => none

/-- Writes down an event. -/
def note (event : Event) : Run Unit :=
  fun machine => some ((), machine.write event)

/-- Looks at the flag, and lowers it. -/
def look : Run Bool :=
  fun machine =>
    match machine.signal with
    | none => some (false, machine)
    | some signal =>
      let raised := signal.raised || signal.arrivals.headD false
      let lowered : Signal := ⟨false, signal.arrivals.tail⟩
      some (raised, { machine with signal := some lowered }.write (.look raised))

/-- Makes an error. -/
def fail (fault : Fault) : Run Value :=
  fun machine => some (.error fault, machine.write (.failure fault))

/-- What a name is bound to as seen from a scope. -/
def find? (scope : ScopeId) (name : String) : Run (Option Value) :=
  fun machine => some (machine.store.get? scope name, machine)

/-- Binds a name in a scope. -/
def bindName (scope : ScopeId) (name : String) (value : Value) : Run Unit :=
  fun machine =>
    some ((), { machine with store := machine.store.set scope name value }.write
      (.binding scope name value))

/-- Binds names to values in order, as far as there are both. -/
def bindNames (scope : ScopeId) : List String → List Value → Run Unit
  | name :: names, value :: values => do
    bindName scope name value
    bindNames scope names values
  | _, _ => pure ()

/-- Opens a scope in another one. -/
def enclose (outer : ScopeId) : Run ScopeId :=
  fun machine =>
    let (scope, store) := machine.store.enclose outer
    some (scope, { machine with store })

/-- Makes a function of its literal and the scope around it. -/
def capture (scope : ScopeId) (parameters : List String) (body : List Statement) : Run Value :=
  fun machine =>
    let (identity, store) := machine.store.countClosure
    some (.function ⟨identity, parameters, body, scope⟩, { machine with store })

/-- A value that was computed, or the error in its place. -/
def settle : Except Fault Value → Run Value
  | .ok value => pure value
  | .error fault => fail fault

/-- Goes on with a value, unless it is an error: an error is the result at once. -/
def thenWith (value : Run Value) (proceed : Value → Run Value) : Run Value := do
  let found ← value
  if found.isError then return found else proceed found

end Run

end Monkey
