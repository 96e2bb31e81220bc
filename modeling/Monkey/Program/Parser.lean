/-
This file reads programs. Statements are read one after the other; one that
cannot be read is dropped with a diagnostic, and the next is looked for where
the reading stopped. Expressions are read by precedence: an operand, and then
as many operators and calls as bind more tightly than what stands before the
operand. A statement may end with a semicolon, and a block may be closed by the
end of the input.

The readings of the pieces call one another. What each does is said with the
readings that it calls as a parameter, and `Readings.atDepth` closes the circle.

`Program.ofTokens` and `Program.parse` give the statements that could be read
and the diagnostics, in the order of the source.
-/

import Monkey.Numeral
import Monkey.Program
import Monkey.Program.Reading
import Monkey.Token.Scan

namespace Monkey

/-! ### Precedence -/

/-- How tightly an operator binds, from the loosest to the tightest. -/
inductive Precedence where
  | lowest
  | equality
  | relation
  | sum
  | product
  | sign
  | call
deriving DecidableEq

namespace Precedence

def rank : Precedence → Nat
  | lowest => 0
  | equality => 1
  | relation => 2
  | sum => 3
  | product => 4
  | sign => 5
  | call => 6

instance : LT Precedence := ⟨fun looser tighter => looser.rank < tighter.rank⟩

instance (looser tighter : Precedence) : Decidable (looser < tighter) :=
  inferInstanceAs (Decidable (looser.rank < tighter.rank))

end Precedence

/-- The operator between two operands that a tag stands for. -/
def Tag.infixOperator? : Tag → Option InfixOperator
  | .plus => some .plus
  | .minus => some .minus
  | .asterisk => some .times
  | .slash => some .divide
  | .less => some .less
  | .greater => some .greater
  | .equal => some .equal
  | .notEqual => some .notEqual
  | _ => none

def InfixOperator.precedence : InfixOperator → Precedence
  | .equal | .notEqual => .equality
  | .less | .greater => .relation
  | .plus | .minus => .sum
  | .times | .divide => .product

/-- How tightly a tag binds an operand before it. A tag that cannot follow an operand does not
bind at all. -/
def Tag.precedence (tag : Tag) : Precedence :=
  match tag.infixOperator? with
  | some operator => operator.precedence
  | none => if tag = .leftParen then .call else .lowest

/-! ### The pieces of a program -/

/-- One reading for each piece of a program. -/
structure Readings where
  /-- The names of a parameter list after its first one may start, up to the closing
  parenthesis. -/
  names : Reading (List String)
  /-- What an expression starts with. The first token is taken even if no expression starts with
  it. -/
  operand : Reading Expression
  /-- An expression whose operators and calls all bind more tightly than `floor`. -/
  expression (floor : Precedence) : Reading Expression
  /-- The operators and calls after an operand that bind more tightly than `floor`, each taking
  what stands before it as its left side. -/
  extension (floor : Precedence) (left : Expression) : Reading Expression
  /-- The arguments of a call after the opening parenthesis. -/
  arguments : Reading (List Expression)
  /-- One or more expressions with commas between them, up to the closing parenthesis. -/
  expressions : Reading (List Expression)
  /-- The statements of a block after the opening brace, up to the closing one or the end of the
  input. -/
  block : Reading (List Statement)
  /-- One statement, with the semicolon after it if there is one. -/
  statement : Reading Statement
  /-- All statements up to the end of the input. -/
  statements : Reading (List Statement)

namespace Readings

open Reading

/-- Readings that give no outcome. -/
def mute : Readings where
  names := exhausted
  operand := exhausted
  expression _ := exhausted
  extension _ _ := exhausted
  arguments := exhausted
  expressions := exhausted
  block := exhausted
  statement := exhausted
  statements := exhausted

variable (inner : Readings)

/-- The parameters of a function after the opening parenthesis. -/
def parameters : Reading (List String) := do
  if (← upcoming) = .rightParen then
    let _ ← advance
    return []
  else
    inner.names

/-- A conditional after its first word. -/
def conditional : Reading Expression := do
  let _ ← expect .leftParen
  let condition ← inner.expression .lowest
  let _ ← expect .rightParen
  let _ ← expect .leftBrace
  let consequence ← inner.block
  if (← upcoming) = .alternative then
    let _ ← advance
    let _ ← expect .leftBrace
    return .conditional condition consequence (some (← inner.block))
  else
    return .conditional condition consequence none

/-- A function after its first word. -/
def function : Reading Expression := do
  let _ ← expect .leftParen
  let names ← inner.parameters
  let _ ← expect .leftBrace
  return .function names (← inner.block)

/-- An operand after its first token. -/
def operandAfter (token : Token) : Reading Expression :=
  match token.tag with
  | .identifier => return .identifier token.text
  | .integer =>
    match Numeral.read? token.text with
    | some value => return .integer value
    | none => reject (.invalidInteger token.text)
  | .truth => return .boolean true
  | .falsity => return .boolean false
  | .bang => return .prefixed .bang (← inner.expression .sign)
  | .minus => return .prefixed .minus (← inner.expression .sign)
  | .leftParen => do
    let tree ← inner.expression .lowest
    let _ ← expect .rightParen
    return tree
  | .condition => inner.conditional
  | .function => inner.function
  | found => reject (.noOperand found)

/-- A binding after its first word. -/
def binding : Reading Statement := do
  let name ← expect .identifier
  let _ ← expect .assign
  let value ← inner.expression .lowest
  skip .semicolon
  return .binding name.text value

/-- A return after its first word. -/
def returning : Reading Statement := do
  let tag ← upcoming
  if tag = .semicolon ∨ tag = .rightBrace ∨ tag = .endOfInput then
    skip .semicolon
    return .returning none
  else
    let value ← inner.expression .lowest
    skip .semicolon
    return .returning (some value)

/-- The readings that call the inner ones for every piece of a piece. -/
def deeper : Readings where
  names := do
    let name ← expect .identifier
    if (← upcoming) = .comma then
      let _ ← advance
      return name.text :: (← inner.names)
    else
      let _ ← expect .rightParen
      return [name.text]
  operand := do
    let token ← advance
    inner.operandAfter token
  expression floor := do
    let left ← inner.operand
    inner.extension floor left
  extension floor left := do
    let tag ← upcoming
    if floor < tag.precedence then
      let _ ← advance
      match tag.infixOperator? with
      | some operator =>
        let right ← inner.expression operator.precedence
        inner.extension floor (.infixed left operator right)
      | none =>
        let given ← inner.arguments
        inner.extension floor (.call left given)
    else
      return left
  arguments := do
    if (← upcoming) = .rightParen then
      let _ ← advance
      return []
    else
      inner.expressions
  expressions := do
    let first ← inner.expression .lowest
    if (← upcoming) = .comma then
      let _ ← advance
      return first :: (← inner.expressions)
    else
      let _ ← expect .rightParen
      return [first]
  block := do
    let tag ← upcoming
    if tag = .rightBrace then
      let _ ← advance
      return []
    else if tag = .endOfInput then
      return []
    else
      let found ← attempt inner.statement
      return found.toList ++ (← inner.block)
  statement := do
    match ← upcoming with
    | .binding =>
      let _ ← advance
      inner.binding
    | .returning =>
      let _ ← advance
      inner.returning
    | _ =>
      let value ← inner.expression .lowest
      skip .semicolon
      return .expression value
  statements := do
    if (← upcoming) = .endOfInput then
      return []
    else
      let found ← attempt inner.statement
      return found.toList ++ (← inner.statements)

/-- The readings whose calls nest less than `depth` deep. -/
def atDepth : Nat → Readings
  | 0 => mute
  | depth + 1 => (atDepth depth).deeper

/-- A depth that no reading of this many tokens meets: between taking one token and taking the
next, at most four calls are entered. -/
def sufficientDepth (count : Nat) : Nat :=
  4 * count + 4

end Readings

/-! ### Programs -/

/-- The statements that could be read, and what was wrong with the others. -/
structure Parsed where
  program : Program
  diagnostics : List Diagnostic
deriving Inhabited

/-- The program that some tokens spell. -/
def Program.ofTokens (tokens : List Token) : Parsed :=
  match (Readings.atDepth (Readings.sufficientDepth tokens.length)).statements tokens with
  | some (.accepted statements noted _) => ⟨⟨statements⟩, noted⟩
  | _ => default

/-- The program that a source spells. -/
def Program.parse (source : String) : Parsed :=
  Program.ofTokens (Token.scan source)

end Monkey
