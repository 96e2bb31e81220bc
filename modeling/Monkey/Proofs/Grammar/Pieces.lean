/-
This file takes pieces of a program one at a time and says when they are read:
how reading goes on after an operand, what is read of a list whose items are
read, and of a statement by its first word. The readings are those without a
bound on the depth, so each is opened by going one call deeper.
-/

import Monkey.Proofs.Grammar.FirstTokens
import Monkey.Proofs.Grammar.Layers
import Monkey.Proofs.Reading.Acceptance

namespace Monkey.Grammar

open Reading
open Readings (unbounded)

/-! ### Reading through expressions -/

theorem unbounded_operand : unbounded.operand = unbounded.deeper.operand :=
  congrArg Readings.operand unbounded_eq_deeper

theorem unbounded_expression (floor : Precedence) :
    unbounded.expression floor = unbounded.deeper.expression floor :=
  congrArg (·.expression floor) unbounded_eq_deeper

theorem unbounded_extension (floor : Precedence) (left : Expression) :
    unbounded.extension floor left = unbounded.deeper.extension floor left :=
  congrArg (·.extension floor left) unbounded_eq_deeper

theorem expression_of_operand {tree : Expression} {tokens rest : List Token}
    (accepted : unbounded.operand.Accepts tokens tree rest) (floor : Precedence) :
    unbounded.expression floor tokens = unbounded.extension floor tree rest := by
  rw [unbounded_expression]
  exact bind_of_accepts accepted

theorem extension_of_stops {tree : Expression} {floor : Precedence} {rest : List Token}
    (stops : ¬ floor < (Token.first rest).tag.precedence) :
    (unbounded.extension floor tree).Accepts rest tree rest := by
  rw [unbounded_extension]
  simp only [Readings.deeper]
  rw [accepts_upcoming_bind, if_neg stops]
  exact accepts_pure.mpr ⟨rfl, rfl⟩

/-- Reading on takes an operator with its right side. -/
theorem extension_of_operator {left right : Expression} {floor : Precedence} {sign : Token}
    {operator : InfixOperator} {middle rest : List Token} (binds : floor < operator.precedence)
    (found : sign.tag.infixOperator? = some operator)
    (accepted : (unbounded.expression operator.precedence).Accepts middle right rest) :
    unbounded.extension floor left (sign :: middle) =
      unbounded.extension floor (.infixed left operator right) rest := by
  have below : floor < (Token.first (sign :: middle)).tag.precedence := by
    rw [Token.first, precedence_of_infixOperator found]
    exact binds
  rw [unbounded_extension]
  simp only [Readings.deeper]
  rw [upcoming_bind, if_pos below, advance_bind]
  simp only [Token.first, found]
  exact bind_of_accepts accepted

/-- Reading on takes the arguments of a call. -/
theorem extension_of_arguments {callee : Expression} {given : List Expression}
    {floor : Precedence} {opening : Token} {middle rest : List Token} (reads : floor ≠ .call)
    (opens : opening.tag = .leftParen)
    (accepted : unbounded.arguments.Accepts middle given rest) :
    unbounded.extension floor callee (opening :: middle) =
      unbounded.extension floor (.call callee given) rest := by
  have below : floor < (Token.first (opening :: middle)).tag.precedence := by
    rw [Token.first, opens, precedence_leftParen]
    cases floor <;> first | exact absurd rfl reads | decide
  rw [unbounded_extension]
  simp only [Readings.deeper]
  rw [upcoming_bind, if_pos below, advance_bind]
  simp only [Token.first, opens, Tag.infixOperator?]
  exact bind_of_accepts accepted

theorem operand_cons (token : Token) (rest : List Token) :
    unbounded.operand (token :: rest) = unbounded.operandAfter token rest := by
  rw [unbounded_operand]
  exact advance_bind _

theorem operand_cons_accepts {token : Token} {tree : Expression} {middle rest : List Token} :
    unbounded.operand.Accepts (token :: middle) tree rest ↔
      (unbounded.operandAfter token).Accepts middle tree rest := by
  unfold Accepts
  rw [operand_cons]

/-! ### Reading lists -/

/-- The arguments of a call that closes at once. -/
theorem accepts_noArguments {closing : Token} {rest : List Token}
    (closes : closing.tag = .rightParen) :
    unbounded.arguments.Accepts (closing :: rest) [] rest := by
  rw [unbounded_eq_deeper]
  simp only [Readings.deeper]
  have closed : (Token.first (closing :: rest)).tag = .rightParen := closes
  rw [accepts_upcoming_bind, if_pos closed, accepts_advance_bind]
  exact accepts_pure.mpr ⟨rfl, rfl⟩

theorem accepts_arguments {trees : List Expression} {tokens rest : List Token}
    (others : (Token.first tokens).tag ≠ .rightParen)
    (accepted : unbounded.expressions.Accepts tokens trees rest) :
    unbounded.arguments.Accepts tokens trees rest := by
  rw [unbounded_eq_deeper]
  simp only [Readings.deeper]
  rw [accepts_upcoming_bind, if_neg others]
  exact accepted

theorem accepts_item {tree : Expression} {closing : Token} {tokens rest : List Token}
    (closes : closing.tag = .rightParen)
    (accepted : (unbounded.expression .lowest).Accepts tokens tree (closing :: rest)) :
    unbounded.expressions.Accepts tokens [tree] rest := by
  have single : (Token.first (closing :: rest)).tag ≠ .comma := by
    rw [Token.first, closes]
    decide
  rw [unbounded_eq_deeper]
  simp only [Readings.deeper]
  refine accepts_bind.mpr ⟨tree, _, accepted, ?_⟩
  rw [accepts_upcoming_bind, if_neg single]
  exact (accepts_expect_bind (by decide)).mpr
    ⟨closing, rest, rfl, closes, accepts_pure.mpr ⟨rfl, rfl⟩⟩

theorem accepts_items {tree : Expression} {trees : List Expression} {comma : Token}
    {tokens middle rest : List Token} (separates : comma.tag = .comma)
    (accepted : (unbounded.expression .lowest).Accepts tokens tree (comma :: middle))
    (others : unbounded.expressions.Accepts middle trees rest) :
    unbounded.expressions.Accepts tokens (tree :: trees) rest := by
  have more : (Token.first (comma :: middle)).tag = .comma := separates
  rw [unbounded_eq_deeper]
  simp only [Readings.deeper]
  refine accepts_bind.mpr ⟨tree, _, accepted, ?_⟩
  rw [accepts_upcoming_bind, if_pos more, accepts_advance_bind]
  exact accepts_bind.mpr ⟨trees, rest, others, accepts_pure.mpr ⟨rfl, rfl⟩⟩

theorem accepts_name {name closing : Token} {rest : List Token} (named : name.tag = .identifier)
    (closes : closing.tag = .rightParen) :
    unbounded.names.Accepts (name :: closing :: rest) [name.text] rest := by
  have single : (Token.first (closing :: rest)).tag ≠ .comma := by
    rw [Token.first, closes]
    decide
  rw [unbounded_eq_deeper]
  simp only [Readings.deeper]
  refine (accepts_expect_bind (by decide)).mpr ⟨name, _, rfl, named, ?_⟩
  rw [accepts_upcoming_bind, if_neg single]
  exact (accepts_expect_bind (by decide)).mpr
    ⟨closing, rest, rfl, closes, accepts_pure.mpr ⟨rfl, rfl⟩⟩

theorem accepts_names {name comma : Token} {others : List String} {middle rest : List Token}
    (named : name.tag = .identifier) (separates : comma.tag = .comma)
    (accepted : unbounded.names.Accepts middle others rest) :
    unbounded.names.Accepts (name :: comma :: middle) (name.text :: others) rest := by
  have more : (Token.first (comma :: middle)).tag = .comma := separates
  rw [unbounded_eq_deeper]
  simp only [Readings.deeper]
  refine (accepts_expect_bind (by decide)).mpr ⟨name, _, rfl, named, ?_⟩
  rw [accepts_upcoming_bind, if_pos more, accepts_advance_bind]
  exact accepts_bind.mpr ⟨others, rest, accepted, accepts_pure.mpr ⟨rfl, rfl⟩⟩

/-! ### Reading statements -/

/-- A statement that starts with neither `let` nor `return` is read as an expression. -/
theorem accepts_statement_of_expression {tree : Statement} {tokens rest : List Token}
    (starts : (Token.first tokens).tag ∈ operandTags)
    (accepted : Accepts (do
      let value ← unbounded.expression .lowest
      skip .semicolon
      return .expression value) tokens tree rest) :
    unbounded.statement.Accepts tokens tree rest := by
  rw [unbounded_eq_deeper]
  simp only [Readings.deeper]
  rw [accepts_upcoming_bind]
  split
  · rename_i same
    rw [same] at starts
    exact absurd starts (by decide)
  · rename_i same
    rw [same] at starts
    exact absurd starts (by decide)
  · exact accepted

theorem accepts_statement_of_binding {tree : Statement} {word : Token} {middle rest : List Token}
    (tagged : word.tag = .binding) (accepted : unbounded.binding.Accepts middle tree rest) :
    unbounded.statement.Accepts (word :: middle) tree rest := by
  rw [unbounded_eq_deeper]
  simp only [Readings.deeper]
  rw [accepts_upcoming_bind]
  simp only [Token.first, tagged]
  exact accepts_advance_bind.mpr accepted

theorem accepts_statement_of_returning {tree : Statement} {word : Token}
    {middle rest : List Token} (tagged : word.tag = .returning)
    (accepted : unbounded.returning.Accepts middle tree rest) :
    unbounded.statement.Accepts (word :: middle) tree rest := by
  rw [unbounded_eq_deeper]
  simp only [Readings.deeper]
  rw [accepts_upcoming_bind]
  simp only [Token.first, tagged]
  exact accepts_advance_bind.mpr accepted

end Monkey.Grammar
