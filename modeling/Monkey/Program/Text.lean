/-
This file writes a program back as text. The text is canonical: every operator
stands in parentheses of its own, so the tree can be read off without knowing
any precedence. Statements follow one another without a separator and a block
has no braces; a binding and a return end with a semicolon.
-/

import Monkey.Program

namespace Monkey

def PrefixOperator.text : PrefixOperator → String
  | .bang => "!"
  | .minus => "-"

def InfixOperator.text : InfixOperator → String
  | .plus => "+"
  | .minus => "-"
  | .times => "*"
  | .divide => "/"
  | .less => "<"
  | .greater => ">"
  | .equal => "=="
  | .notEqual => "!="

/-- An integer in decimal, with a minus sign if it is negative. -/
def integerText (value : Int64) : String :=
  toString value.toInt

/-- A truth value as the language spells it. -/
def booleanText : Bool → String
  | true => "true"
  | false => "false"

/-- Items with a comma and a space between them. -/
def separated : List String → String
  | [] => ""
  | [item] => item
  | item :: next :: rest => item ++ ", " ++ separated (next :: rest)

mutual

/-- The canonical text of an expression. -/
def Expression.text : Expression → String
  | .identifier name => name
  | .integer value => integerText value
  | .boolean value => booleanText value
  | .prefixed operator operand => "(" ++ operator.text ++ operand.text ++ ")"
  | .infixed left operator right =>
    "(" ++ left.text ++ " " ++ operator.text ++ " " ++ right.text ++ ")"
  | .conditional condition consequence none =>
    "if " ++ condition.text ++ " " ++ blockText consequence
  | .conditional condition consequence (some alternative) =>
    "if " ++ condition.text ++ " " ++ blockText consequence ++ " else " ++ blockText alternative
  | .function parameters body => "fn(" ++ separated parameters ++ ") " ++ blockText body
  | .call callee arguments => callee.text ++ "(" ++ separated (expressionTexts arguments) ++ ")"

/-- The canonical texts of some expressions. -/
def expressionTexts : List Expression → List String
  | [] => []
  | expression :: rest => expression.text :: expressionTexts rest

/-- The canonical text of a statement. -/
def Statement.text : Statement → String
  | .binding name value => "let " ++ name ++ " = " ++ value.text ++ ";"
  | .returning none => "return;"
  | .returning (some value) => "return " ++ value.text ++ ";"
  | .expression value => value.text

/-- The canonical text of some statements, one right after the other. -/
def blockText : List Statement → String
  | [] => ""
  | statement :: rest => statement.text ++ blockText rest

end

/-- The canonical text of a program. -/
def Program.text (program : Program) : String :=
  blockText program.statements

end Monkey
