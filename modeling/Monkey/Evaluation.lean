/-
This file evaluates programs. Errors and returned values travel as values: each
ends the statements that it appears among, a call gives the value inside a
returned one, and an error goes out of every expression at once. Operands,
arguments and statements are taken from left to right.

The evaluation of a piece of syntax is recursive on that piece. What a call does
is a parameter of it, and `call` closes the circle: a call may nest calls up to
a given depth, and one that would nest deeper gives nothing.

The flag is looked at before each statement and before the body of each call.
-/

import Monkey.Machine

namespace Monkey

/-! ### Operators -/

/-- The value of an operator before an operand. Integers wrap around at 64 bits. -/
def PrefixOperator.apply : PrefixOperator → Value → Except Fault Value
  | .bang, operand => .ok (.boolean (!operand.isTruthy))
  | .minus, .integer value => .ok (.integer (-value))
  | .minus, operand => .error (.negation operand.kind)

/-- The value of an operator between two integers. They wrap around at 64 bits, and division
cuts towards zero. -/
def InfixOperator.applyToIntegers (operator : InfixOperator) (left right : Int64) :
    Except Fault Value :=
  match operator with
  | .plus => .ok (.integer (left + right))
  | .minus => .ok (.integer (left - right))
  | .times => .ok (.integer (left * right))
  | .divide => if right = 0 then .error (.divisionByZero left) else .ok (.integer (left / right))
  | .less => .ok (.boolean (left < right))
  | .greater => .ok (.boolean (right < left))
  | .equal => .ok (.boolean (left == right))
  | .notEqual => .ok (.boolean (left != right))

/-- The value of an operator between two operands. Values that are not both integers can only be
compared, by identity, and only with their own kind. -/
def InfixOperator.apply (operator : InfixOperator) : Value → Value → Except Fault Value
  | .integer left, .integer right => operator.applyToIntegers left right
  | left, right =>
    if left.kind ≠ right.kind then .error (.mismatch left.kind operator right.kind)
    else
      match operator with
      | .equal => .ok (.boolean (left.isIdentical right))
      | .notEqual => .ok (.boolean (!left.isIdentical right))
      | _ => .error (.unknownOperator operator left.kind)

namespace Evaluation

/-! ### Syntax -/

/-- What happens when a closure is called with as many arguments as it has parameters. -/
abbrev Calling := Closure → List Value → Run Value

/-- Applies a value to arguments. -/
def apply (calling : Calling) (callee : Value) (arguments : List Value) : Run Value := do
  Run.note (.application callee arguments)
  match callee with
  | .function closure =>
    if closure.parameters.length ≠ arguments.length then
      Run.fail (.wrongArity closure.parameters.length arguments.length)
    else if ← Run.look then
      Run.fail .interrupted
    else
      calling closure arguments
  | _ => Run.fail (.notFunction callee.kind)

mutual

/-- The value of an expression in a scope. -/
def expression (calling : Calling) (scope : ScopeId) (piece : Expression) : Run Value := do
  Run.note (.expression piece)
  match piece with
  | .identifier name =>
    match ← Run.find? scope name with
    | some value => return value
    | none => Run.fail (.unbound name)
  | .integer value => return .integer value
  | .boolean value => return .boolean value
  | .prefixed operator operand =>
    Run.thenWith (expression calling scope operand) fun value => do
      Run.note (.operand value)
      Run.settle (operator.apply value)
  | .infixed left operator right =>
    Run.thenWith (expression calling scope left) fun leftValue => do
      Run.note (.operand leftValue)
      Run.thenWith (expression calling scope right) fun rightValue => do
        Run.note (.operand rightValue)
        Run.settle (operator.apply leftValue rightValue)
  | .conditional condition consequence alternative =>
    Run.thenWith (expression calling scope condition) fun value => do
      Run.note (.operand value)
      if value.isTruthy then
        statements calling scope .null consequence
      else
        match alternative with
        | some statementsElse => statements calling scope .null statementsElse
        | none => return .null
  | .function parameters body => Run.capture scope parameters body
  | .call callee given =>
    Run.thenWith (expression calling scope callee) fun value => do
      Run.note (.operand value)
      match ← arguments calling scope given with
      | .ok values => apply calling value values
      | .error fault => return .error fault

/-- The values of arguments in a scope, or the error that ended their evaluation. -/
def arguments (calling : Calling) (scope : ScopeId) :
    List Expression → Run (Except Fault (List Value))
  | [] => return .ok []
  | first :: rest => do
    match ← expression calling scope first with
    | .error fault => return .error fault
    | value =>
      match ← arguments calling scope rest with
      | .ok values => return .ok (value :: values)
      | .error fault => return .error fault

/-- What a statement comes to in a scope. A binding comes to null. -/
def statement (calling : Calling) (scope : ScopeId) (piece : Statement) : Run Value := do
  if ← Run.look then
    Run.fail .interrupted
  else
    Run.note (.statement piece)
    match piece with
    | .binding name value =>
      Run.thenWith (expression calling scope value) fun found => do
        Run.bindName scope name found
        return .null
    | .returning none =>
      Run.note (.leaving .null)
      return .returned .null
    | .returning (some value) =>
      Run.thenWith (expression calling scope value) fun found => do
        Run.note (.leaving found)
        return .returned found
    | .expression value => expression calling scope value

/-- What statements come to: the value of the last one, or the first that ends them. `latest` is
the value so far. -/
def statements (calling : Calling) (scope : ScopeId) (latest : Value) :
    List Statement → Run Value
  | [] => return latest
  | first :: rest => do
    let value ← statement calling scope first
    if value.isExit then return value else statements calling scope value rest

end

/-! ### Calls and programs -/

/-- A call binds the arguments in a new scope inside the one that the closure was made in, and
evaluates the body there. Calls within it nest at most `depth` deep. -/
def call : Nat → Calling
  | 0 => fun _ _ => Run.exhausted
  | depth + 1 => fun closure arguments => do
    let scope ← Run.enclose closure.scope
    Run.bindNames scope closure.parameters arguments
    let value ← statements (call depth) scope .null closure.body
    return value.unwrapped

end Evaluation

/-- How the statements of a program ended. -/
inductive Completion where
  /-- Every statement ran, and this is the value of the last one. -/
  | finished (value : Value)
  /-- A returned value or an error ended the program. -/
  | stopped (value : Value)
deriving Inhabited

namespace Completion

/-- How statements that come to a value have ended. -/
def ofValue : Value → Completion
  | .returned value => stopped value
  | .error fault => stopped (.error fault)
  | value => finished value

def value : Completion → Value
  | finished value => value
  | stopped value => value

end Completion

/-- Evaluates a program in a scope. Calls nest at most `depth` deep. -/
def Program.run (program : Program) (depth : Nat) (scope : ScopeId) : Run Completion := do
  let value ← Evaluation.statements (Evaluation.call depth) scope .null program.statements
  return .ofValue value

end Monkey
