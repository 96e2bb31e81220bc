/-
This file is the grammar of Monkey programs. An expression has six layers, from
the comparisons for equality down to the calls, and every binary operator
belongs to one of them and is left associative. Statements follow one another
without a separator, so two rules look at the token that comes next: an
expression that ends a statement without a semicolon is as long as it can be,
and a `return` alone stands before a semicolon, a closing brace or the end of
the input. A block may be closed by the end of the input.

The grammar knows nothing of how programs are read. A derivation says from which
tokens it starts and which it leaves, and carries the tree that it builds.
-/

import Monkey.Numeral
import Monkey.Program
import Monkey.Token

namespace Monkey.Grammar

/-! ### Symbols -/

/-- The layers of an expression, from the loosest to the tightest. -/
inductive Layer where
  | equality
  | relation
  | sum
  | product
  | sign
  | call
deriving DecidableEq

namespace Layer

/-- The operators that join two operands at a layer, each with the tag of its sign. -/
def operators : Layer → List (Tag × InfixOperator)
  | equality => [(.equal, .equal), (.notEqual, .notEqual)]
  | relation => [(.less, .less), (.greater, .greater)]
  | sum => [(.plus, .plus), (.minus, .minus)]
  | product => [(.asterisk, .times), (.slash, .divide)]
  | sign | call => []

/-- The layer right below. -/
def tighter : Layer → Option Layer
  | equality => some relation
  | relation => some sum
  | sum => some product
  | product => some sign
  | sign => some call
  | call => none

end Layer

/-- The operators before an operand, each with the tag of its sign. -/
def signs : List (Tag × PrefixOperator) :=
  [(.minus, .minus), (.bang, .bang)]

/-- The tags with which an expression could go on: those of binary operators, and the parenthesis
of a call. -/
def continuing : List Tag :=
  [.equal, .notEqual, .less, .greater, .plus, .minus, .asterisk, .slash, .leftParen]

/-- A symbol of the grammar with the tree that is derived from it. -/
inductive Construct where
  | layer (layer : Layer) (tree : Expression)
  | primary (tree : Expression)
  /-- Expressions with commas between them, at least one. -/
  | list (trees : List Expression)
  /-- Expressions in the parentheses of a call. -/
  | arguments (trees : List Expression)
  /-- Names with commas between them, at least one. -/
  | names (names : List String)
  /-- Names in the parentheses of a function. -/
  | parameters (names : List String)
  | block (trees : List Statement)
  | statement (tree : Statement)
  | statements (trees : List Statement)

/-- Any expression. -/
abbrev Construct.expression (tree : Expression) : Construct :=
  layer .equality tree

/-! ### Rules -/

/-- How a statement with an expression at its end may end: with a semicolon, or where the
expression cannot go on. -/
inductive Terminated : List Token → List Token → Prop where
  | semicolon {token : Token} {rest : List Token} (tagged : token.tag = .semicolon) :
    Terminated (token :: rest) rest
  | complete {rest : List Token} (stops : (Token.first rest).tag ∉ continuing) :
    Terminated rest rest

/-- How a block may be closed: with a brace, or by the end of the input. -/
inductive Closed : List Token → List Token → Prop where
  | brace {token : Token} {rest : List Token} (tagged : token.tag = .rightBrace) :
    Closed (token :: rest) rest
  | ended {rest : List Token} (ended : (Token.first rest).tag = .endOfInput) : Closed rest rest

/-- `Derives construct tokens rest` is a derivation of the construct from the front of the tokens
that leaves the rest. -/
inductive Derives : Construct → List Token → List Token → Prop where
  | infixed {layer tighter : Layer} {left right : Expression} {sign : Token}
      {operator : InfixOperator} {tokens middle rest : List Token}
      (first : Derives (.layer layer left) tokens (sign :: middle))
      (joins : (sign.tag, operator) ∈ layer.operators) (below : layer.tighter = some tighter)
      (second : Derives (.layer tighter right) middle rest) :
    Derives (.layer layer (.infixed left operator right)) tokens rest
  | prefixed {operand : Expression} {sign : Token} {operator : PrefixOperator}
      {middle rest : List Token} (stands : (sign.tag, operator) ∈ signs)
      (inner : Derives (.layer .sign operand) middle rest) :
    Derives (.layer .sign (.prefixed operator operand)) (sign :: middle) rest
  | call {callee : Expression} {given : List Expression} {tokens middle rest : List Token}
      (head : Derives (.layer .call callee) tokens middle)
      (tail : Derives (.arguments given) middle rest) :
    Derives (.layer .call (.call callee given)) tokens rest
  | descend {layer tighter : Layer} {tree : Expression} {tokens rest : List Token}
      (below : layer.tighter = some tighter) (inner : Derives (.layer tighter tree) tokens rest) :
    Derives (.layer layer tree) tokens rest
  | primary {tree : Expression} {tokens rest : List Token}
      (inner : Derives (.primary tree) tokens rest) : Derives (.layer .call tree) tokens rest
  | identifier {token : Token} {rest : List Token} (tagged : token.tag = .identifier) :
    Derives (.primary (.identifier token.text)) (token :: rest) rest
  | integer {token : Token} {value : Int64} {rest : List Token} (tagged : token.tag = .integer)
      (fits : Numeral.read? token.text = some value) :
    Derives (.primary (.integer value)) (token :: rest) rest
  | truth {token : Token} {rest : List Token} (tagged : token.tag = .truth) :
    Derives (.primary (.boolean true)) (token :: rest) rest
  | falsity {token : Token} {rest : List Token} (tagged : token.tag = .falsity) :
    Derives (.primary (.boolean false)) (token :: rest) rest
  | grouped {opening closing : Token} {tree : Expression} {middle rest : List Token}
      (opens : opening.tag = .leftParen)
      (inner : Derives (.expression tree) middle (closing :: rest))
      (closes : closing.tag = .rightParen) : Derives (.primary tree) (opening :: middle) rest
  | conditional {word opening closing : Token} {condition : Expression}
      {consequence : List Statement} {middle yes rest : List Token}
      (tagged : word.tag = .condition) (opens : opening.tag = .leftParen)
      (inner : Derives (.expression condition) middle (closing :: yes))
      (closes : closing.tag = .rightParen) (block : Derives (.block consequence) yes rest) :
    Derives (.primary (.conditional condition consequence none)) (word :: opening :: middle) rest
  | alternative {word opening closing otherwise : Token} {condition : Expression}
      {consequence alternative : List Statement} {middle yes no rest : List Token}
      (tagged : word.tag = .condition) (opens : opening.tag = .leftParen)
      (inner : Derives (.expression condition) middle (closing :: yes))
      (closes : closing.tag = .rightParen)
      (block : Derives (.block consequence) yes (otherwise :: no))
      (turns : otherwise.tag = .alternative) (other : Derives (.block alternative) no rest) :
    Derives (.primary (.conditional condition consequence (some alternative)))
      (word :: opening :: middle) rest
  | function {word : Token} {names : List String} {body : List Statement}
      {middle inside rest : List Token} (tagged : word.tag = .function)
      (parameters : Derives (.parameters names) middle inside)
      (block : Derives (.block body) inside rest) :
    Derives (.primary (.function names body)) (word :: middle) rest
  | item {tree : Expression} {tokens rest : List Token}
      (inner : Derives (.expression tree) tokens rest) : Derives (.list [tree]) tokens rest
  | items {tree : Expression} {trees : List Expression} {comma : Token}
      {tokens middle rest : List Token}
      (inner : Derives (.expression tree) tokens (comma :: middle))
      (separates : comma.tag = .comma) (others : Derives (.list trees) middle rest) :
    Derives (.list (tree :: trees)) tokens rest
  | noArguments {opening closing : Token} {rest : List Token} (opens : opening.tag = .leftParen)
      (closes : closing.tag = .rightParen) :
    Derives (.arguments []) (opening :: closing :: rest) rest
  | arguments {opening closing : Token} {trees : List Expression} {middle rest : List Token}
      (opens : opening.tag = .leftParen) (inner : Derives (.list trees) middle (closing :: rest))
      (closes : closing.tag = .rightParen) : Derives (.arguments trees) (opening :: middle) rest
  | name {token : Token} {rest : List Token} (tagged : token.tag = .identifier) :
    Derives (.names [token.text]) (token :: rest) rest
  | names {token comma : Token} {others : List String} {middle rest : List Token}
      (tagged : token.tag = .identifier) (separates : comma.tag = .comma)
      (tail : Derives (.names others) middle rest) :
    Derives (.names (token.text :: others)) (token :: comma :: middle) rest
  | noParameters {opening closing : Token} {rest : List Token} (opens : opening.tag = .leftParen)
      (closes : closing.tag = .rightParen) :
    Derives (.parameters []) (opening :: closing :: rest) rest
  | parameters {opening closing : Token} {names : List String} {middle rest : List Token}
      (opens : opening.tag = .leftParen) (inner : Derives (.names names) middle (closing :: rest))
      (closes : closing.tag = .rightParen) : Derives (.parameters names) (opening :: middle) rest
  | block {brace : Token} {trees : List Statement} {middle after rest : List Token}
      (opens : brace.tag = .leftBrace) (inner : Derives (.statements trees) middle after)
      (closes : Closed after rest) : Derives (.block trees) (brace :: middle) rest
  | binding {word name sign : Token} {value : Expression} {middle after rest : List Token}
      (tagged : word.tag = .binding) (named : name.tag = .identifier) (assigns : sign.tag = .assign)
      (inner : Derives (.expression value) middle after) (ends : Terminated after rest) :
    Derives (.statement (.binding name.text value)) (word :: name :: sign :: middle) rest
  | bareReturn {word semicolon : Token} {rest : List Token} (tagged : word.tag = .returning)
      (ends : semicolon.tag = .semicolon) :
    Derives (.statement (.returning none)) (word :: semicolon :: rest) rest
  | lastReturn {word : Token} {rest : List Token} (tagged : word.tag = .returning)
      (ends : (Token.first rest).tag = .rightBrace ∨ (Token.first rest).tag = .endOfInput) :
    Derives (.statement (.returning none)) (word :: rest) rest
  | returning {word : Token} {value : Expression} {middle after rest : List Token}
      (tagged : word.tag = .returning) (inner : Derives (.expression value) middle after)
      (ends : Terminated after rest) :
    Derives (.statement (.returning (some value))) (word :: middle) rest
  | expression {value : Expression} {tokens after rest : List Token}
      (inner : Derives (.expression value) tokens after) (ends : Terminated after rest) :
    Derives (.statement (.expression value)) tokens rest
  | empty {tokens : List Token} : Derives (.statements []) tokens tokens
  | statements {tree : Statement} {trees : List Statement} {tokens middle rest : List Token}
      (first : Derives (.statement tree) tokens middle)
      (others : Derives (.statements trees) middle rest) :
    Derives (.statements (tree :: trees)) tokens rest

/-- A program is spelled by some tokens if its statements derive from all of them. -/
def Spells (tokens : List Token) (program : Program) : Prop :=
  Derives (.statements program.statements) tokens []

end Monkey.Grammar
