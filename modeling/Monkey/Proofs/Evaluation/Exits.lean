/-
This file evaluates programs with exits. A `return` and an error both leave the
run at once, so no value ever stands for one of them. The innermost call around
a `return`, or the program, catches what it returns; only the program catches an
error.

It also says where a `return` may stand so that this is what happens: among the
statements of a program or of a function, or in a block of a conditional that is
such a statement by itself.
-/

import Monkey.Evaluation

namespace Monkey

/-! ### Where returns stand -/

mutual

/-- Every `return` in the expression is well placed. In the blocks of a conditional there may be
some if `returns`, which says that the expression is a statement where one may stand. -/
def Expression.WellPlaced (returns : Bool) : Expression → Prop
  | .identifier _ | .integer _ | .boolean _ => True
  | .prefixed _ operand => operand.WellPlaced false
  | .infixed left _ right => left.WellPlaced false ∧ right.WellPlaced false
  | .conditional condition consequence alternative =>
    condition.WellPlaced false ∧ StatementsWellPlaced returns consequence ∧
      match alternative with
      | some statements => StatementsWellPlaced returns statements
      | none => True
  | .function _ body => StatementsWellPlaced true body
  | .call callee given => callee.WellPlaced false ∧ ArgumentsWellPlaced given

def ArgumentsWellPlaced : List Expression → Prop
  | [] => True
  | first :: rest => first.WellPlaced false ∧ ArgumentsWellPlaced rest

/-- The statement is a `return` only if it may be one, and every other one in it is well placed. -/
def Statement.WellPlaced (returns : Bool) : Statement → Prop
  | .binding _ value => value.WellPlaced false
  | .returning none => returns = true
  | .returning (some value) => returns = true ∧ value.WellPlaced false
  | .expression value => value.WellPlaced returns

def StatementsWellPlaced (returns : Bool) : List Statement → Prop
  | [] => True
  | first :: rest => first.WellPlaced returns ∧ StatementsWellPlaced returns rest

end

/-- Every `return` of the program is well placed. -/
def Program.WellPlaced (program : Program) : Prop :=
  StatementsWellPlaced true program.statements

/-! ### Evaluation -/

/-- What leaves a run before its end. -/
inductive Exit where
  | returning (value : Value)
  | failing (fault : Fault)

/-- A run that exits leave at once. -/
abbrev Leaving := ExceptT Exit Run

namespace Leaving

/-- Makes an error and leaves with it. -/
def fail {Result : Type} (fault : Fault) : Leaving Result := do
  Run.note (.failure fault)
  throw (.failing fault)

/-- A value that was computed, or the error made in its place. -/
def settle : Except Fault Value → Leaving Value
  | .ok value => return value
  | .error fault => fail fault

/-- What the run comes to or returns. Errors are not caught. -/
def caught (run : Leaving Value) : Leaving Value :=
  tryCatch run fun
    | .returning value => return value
    | .failing fault => throw (.failing fault)

/-- What happens when a closure is called with as many arguments as it has parameters. -/
abbrev Calling := Closure → List Value → Leaving Value

/-- Applies a value to arguments. -/
def apply (calling : Calling) (callee : Value) (arguments : List Value) : Leaving Value := do
  Run.note (.application callee arguments)
  match callee with
  | .function closure =>
    if closure.parameters.length ≠ arguments.length then
      fail (.wrongArity closure.parameters.length arguments.length)
    else if ← Run.look then
      fail .interrupted
    else
      calling closure arguments
  | _ => fail (.notFunction callee.kind)

mutual

/-- The value of an expression in a scope. -/
def expression (calling : Calling) (scope : ScopeId) (piece : Expression) : Leaving Value := do
  Run.note (.expression piece)
  match piece with
  | .identifier name =>
    match ← Run.find? scope name with
    | some value => return value
    | none => fail (.unbound name)
  | .integer value => return .integer value
  | .boolean value => return .boolean value
  | .prefixed operator operand => do
    let value ← expression calling scope operand
    Run.note (.operand value)
    settle (operator.apply value)
  | .infixed left operator right => do
    let leftValue ← expression calling scope left
    Run.note (.operand leftValue)
    let rightValue ← expression calling scope right
    Run.note (.operand rightValue)
    settle (operator.apply leftValue rightValue)
  | .conditional condition consequence alternative => do
    let value ← expression calling scope condition
    Run.note (.operand value)
    if value.isTruthy then
      statements calling scope .null consequence
    else
      match alternative with
      | some statementsElse => statements calling scope .null statementsElse
      | none => return .null
  | .function parameters body => Run.capture scope parameters body
  | .call callee given => do
    let value ← expression calling scope callee
    Run.note (.operand value)
    let values ← arguments calling scope given
    apply calling value values

/-- The values of arguments in a scope. -/
def arguments (calling : Calling) (scope : ScopeId) : List Expression → Leaving (List Value)
  | [] => return []
  | first :: rest => do
    let value ← expression calling scope first
    let values ← arguments calling scope rest
    return value :: values

/-- What a statement comes to in a scope. A binding comes to null, and a `return` to nothing. -/
def statement (calling : Calling) (scope : ScopeId) (piece : Statement) : Leaving Value := do
  if ← Run.look then
    fail .interrupted
  else
    Run.note (.statement piece)
    match piece with
    | .binding name value => do
      let value ← expression calling scope value
      Run.bindName scope name value
      return .null
    | .returning none => do
      Run.note (.leaving .null)
      throw (.returning .null)
    | .returning (some value) => do
      let value ← expression calling scope value
      Run.note (.leaving value)
      throw (.returning value)
    | .expression value => expression calling scope value

/-- The value of the last statement. `latest` is the value so far. -/
def statements (calling : Calling) (scope : ScopeId) (latest : Value) :
    List Statement → Leaving Value
  | [] => return latest
  | first :: rest => do
    let value ← statement calling scope first
    statements calling scope value rest

end

/-- A call binds the arguments in a new scope inside the one that the closure was made in, and
evaluates the body there. Calls within it nest at most `depth` deep. -/
def call : Nat → Calling
  | 0 => fun _ _ => Run.exhausted
  | depth + 1 => fun closure arguments => do
    let scope ← Run.enclose closure.scope
    Run.bindNames scope closure.parameters arguments
    caught (statements (call depth) scope .null closure.body)

end Leaving

/-- Evaluates a program in a scope. An exit that no call has caught has stopped it. -/
def Program.runLeaving (program : Program) (depth : Nat) (scope : ScopeId) : Run Completion := do
  match ← (Leaving.statements (Leaving.call depth) scope .null program.statements).run with
  | .ok value => return .finished value
  | .error (.returning value) => return .stopped value
  | .error (.failing fault) => return .stopped (.error fault)

end Monkey
