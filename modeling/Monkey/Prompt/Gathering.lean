/-
This file says how the prompt gathers lines into a text. A text is whole once
its tokens close at least as many parentheses and braces as they open, and a
command line is always whole, so that only programs go on over several lines.
-/

import Monkey.Command
import Monkey.Token.Scan

namespace Monkey.Prompt

/-- By how much a token makes a text want a closing parenthesis or brace. -/
def weight (token : Token) : Int :=
  match token.tag with
  | .leftParen | .leftBrace => 1
  | .rightParen | .rightBrace => -1
  | _ => 0

/-- How many more parentheses and braces some tokens open than they close. -/
def excess : List Token → Int
  | [] => 0
  | token :: rest => weight token + excess rest

/-- Whether a text is not whole yet. -/
def needsMore (text : String) : Bool :=
  (CommandLine.parse? text).isNone && decide (0 < excess (Token.scan text))

/-- A text with one more line, if it has been started. -/
def extend (started : Option String) (line : String) : String :=
  match started with
  | none => line
  | some text => text ++ "\n" ++ line

end Monkey.Prompt
