/-
This file holds the values of a Monkey run. Besides the values that a program
computes with there are two that steer it: a returned value on its way to the
call or program that it leaves, and an error on its way out of the program.

A function remembers the scope that it was made in, and the number of the
evaluation that made it: two functions are the same only if that number is.
-/

import Monkey.Program.Text

namespace Monkey

/-- A scope is named by the place at which it was created among all scopes. -/
abbrev ScopeId := Nat

/-! ### Kinds -/

/-- What sort of value a value is. -/
inductive Kind where
  | integer
  | boolean
  | null
  | function
  | returned
  | error
deriving DecidableEq, Inhabited

/-- The name of a kind, as faults show it. -/
def Kind.name : Kind → String
  | integer => "INTEGER"
  | boolean => "BOOLEAN"
  | null => "NULL"
  | function => "FUNCTION"
  | returned => "RETURN_VALUE"
  | error => "ERROR"

/-! ### Faults -/

/-- Why a run cannot go on. -/
inductive Fault where
  /-- The run was asked to stop. -/
  | interrupted
  /-- No scope in sight binds the name. -/
  | unbound (name : String)
  /-- Only integers can be negated. -/
  | negation (operand : Kind)
  /-- The operator does not apply to operands of this kind. -/
  | unknownOperator (operator : InfixOperator) (operands : Kind)
  /-- The operands are of two kinds. -/
  | mismatch (left : Kind) (operator : InfixOperator) (right : Kind)
  /-- The divisor is zero. -/
  | divisionByZero (dividend : Int64)
  /-- Only functions can be called. -/
  | notFunction (callee : Kind)
  /-- The function takes another number of arguments. -/
  | wrongArity (wanted given : Nat)
deriving DecidableEq

/-- The sentence that reports a fault. -/
def Fault.message : Fault → String
  | interrupted => "Evaluation interrupted"
  | unbound name => "Identifier not found: " ++ name
  | negation operand => "Unknown operator: -" ++ operand.name
  | unknownOperator operator operands =>
    "Unknown operator: " ++ operands.name ++ " " ++ operator.text ++ " " ++ operands.name
  | mismatch left operator right =>
    "Type missmatch: " ++ left.name ++ " " ++ operator.text ++ " " ++ right.name
  | divisionByZero dividend => "Division by zero: " ++ integerText dividend ++ " / 0"
  | notFunction callee => "Not a function: " ++ callee.name
  | wrongArity wanted given =>
    "Wrong number of arguments: want=" ++ toString wanted ++ ", got=" ++ toString given

/-! ### Values -/

/-- A function literal together with the scope it was evaluated in. -/
structure Closure where
  /-- Which evaluation of a function literal made this closure. -/
  identity : Nat
  parameters : List String
  body : List Statement
  scope : ScopeId

inductive Value where
  | integer (value : Int64)
  | boolean (value : Bool)
  | null
  | function (closure : Closure)
  | returned (value : Value)
  | error (fault : Fault)
deriving Inhabited

namespace Value

def kind : Value → Kind
  | integer _ => .integer
  | boolean _ => .boolean
  | null => .null
  | function _ => .function
  | returned _ => .returned
  | error _ => .error

def isError : Value → Bool
  | error _ => true
  | _ => false

/-- Whether a value ends the statements that it appears among. -/
def isExit : Value → Bool
  | returned _ | error _ => true
  | _ => false

/-- Only `false` and `null` count as false. -/
def isTruthy : Value → Bool
  | boolean value => value
  | null => false
  | _ => true

/-- The value inside a returned value, and any other value itself. -/
def unwrapped : Value → Value
  | returned value => value
  | value => value

/-- The same integer, truth value, null or function. Returned values and errors are the same as
nothing, not even as themselves. -/
def isIdentical : Value → Value → Bool
  | integer left, integer right => left == right
  | boolean left, boolean right => left == right
  | null, null => true
  | function left, function right => left.identity == right.identity
  | _, _ => false

/-- Identity, with returned values compared by what they carry and errors by their message. -/
def isEqual : Value → Value → Bool
  | returned left, returned right => left.isEqual right
  | error left, error right => left.message == right.message
  | left, right => left.isIdentical right

/-- The text of a value, as the prompt shows it. -/
def text : Value → String
  | integer value => integerText value
  | boolean value => booleanText value
  | null => "null"
  | function closure =>
    "fn (" ++ separated closure.parameters ++ ") \x7b\n" ++ blockText closure.body ++ "\n\x7d"
  | returned value => value.text
  | error fault => "ERROR: " ++ fault.message

end Value

end Monkey
