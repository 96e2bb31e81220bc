/-
This file fixes the vocabulary of Monkey source text: the tags a token can
carry, their names as diagnostics show them, and the words the language keeps
for itself. How a source is cut into tokens is `Monkey.Token.Scan`.
-/

namespace Monkey

/-- What kind of token a piece of source text is. -/
inductive Tag where
  | illegal
  | endOfInput
  | identifier
  | integer
  | assign
  | plus
  | minus
  | asterisk
  | slash
  | bang
  | less
  | greater
  | equal
  | notEqual
  | comma
  | semicolon
  | leftParen
  | rightParen
  | leftBrace
  | rightBrace
  | function
  | binding
  | condition
  | alternative
  | returning
  | truth
  | falsity
deriving DecidableEq, Inhabited

namespace Tag

/-- The name a diagnostic shows: an operator stands for itself, the rest is in capitals. -/
def name : Tag → String
  | illegal => "ILLEGAL"
  | endOfInput => "EOF"
  | identifier => "IDENT"
  | integer => "INT"
  | assign => "="
  | plus => "+"
  | minus => "-"
  | asterisk => "*"
  | slash => "/"
  | bang => "!"
  | less => "<"
  | greater => ">"
  | equal => "=="
  | notEqual => "!="
  | comma => ","
  | semicolon => ";"
  | leftParen => "("
  | rightParen => ")"
  | leftBrace => "\x7b"
  | rightBrace => "\x7d"
  | function => "FUNCTION"
  | binding => "LET"
  | condition => "IF"
  | alternative => "ELSE"
  | returning => "RETURN"
  | truth => "TRUE"
  | falsity => "FALSE"

end Tag

/-- A piece of source text with its tag. -/
structure Token where
  tag : Tag
  text : String
deriving DecidableEq, Inhabited

namespace Token

/-- What stands after the last token of every source. -/
def endOfInput : Token := ⟨.endOfInput, ""⟩

/-- The first of some tokens, which is the end of the input if there are none. -/
def first : List Token → Token
  | [] => endOfInput
  | token :: _ => token

/-! ### Words -/

/-- The words that are not names, in the order in which they are offered as completions. -/
def keywords : List (String × Tag) :=
  [("fn", .function), ("let", .binding), ("if", .condition), ("else", .alternative),
    ("return", .returning), ("true", .truth), ("false", .falsity)]

/-- The tag of a word: a keyword has its own, and every other word is a name. -/
def wordTag (word : String) : Tag :=
  (keywords.lookup word).getD .identifier

/-! ### Signs -/

/-- The characters that are tokens by themselves. -/
def signs : List (Char × Tag) :=
  [('=', .assign), ('+', .plus), ('-', .minus), ('*', .asterisk), ('/', .slash), ('!', .bang),
    ('<', .less), ('>', .greater), (',', .comma), (';', .semicolon), ('(', .leftParen),
    (')', .rightParen), ('{', .leftBrace), ('}', .rightBrace)]

/-- The tag of a character that stands alone. -/
def signTag (sign : Char) : Tag :=
  (signs.lookup sign).getD .illegal

end Token

end Monkey
