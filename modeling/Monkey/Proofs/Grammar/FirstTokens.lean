/-
This file says with which tokens derivations start. An operand, an expression
and a statement can only start with a few tags, and the end of the statements of
a block or of a program is recognised by the token after it.
-/

import Monkey.Proofs.Grammar.Derivation

namespace Monkey.Grammar

/-- The tags with which an operand can start. -/
def operandTags : List Tag :=
  [.identifier, .integer, .truth, .falsity, .bang, .minus, .leftParen, .condition, .function]

/-- The tags with which a statement can start. -/
def statementTags : List Tag :=
  .binding :: .returning :: operandTags

/-- The tags with which a derivation can start, where they matter. -/
def Construct.openingTags : Construct → Option (List Tag)
  | layer _ _ | primary _ | list _ => some operandTags
  | names _ => some [.identifier]
  | statement _ => some statementTags
  | _ => none

theorem Derives.opens {construct : Construct} {tokens rest : List Token} {tags : List Tag}
    (derivation : Derives construct tokens rest) (known : construct.openingTags = some tags) :
    (Token.first tokens).tag ∈ tags := by
  induction derivation generalizing tags with
  | infixed _ _ _ _ inductionHypothesis _ => exact inductionHypothesis known
  | prefixed stands _ _ =>
    cases known
    simp only [signs, List.mem_cons, Prod.mk.injEq, List.not_mem_nil, or_false] at stands
    rcases stands with ⟨tagged, _⟩ | ⟨tagged, _⟩ <;> rw [Token.first, tagged] <;> decide
  | call _ _ inductionHypothesis _ => exact inductionHypothesis known
  | descend _ _ inductionHypothesis => exact inductionHypothesis known
  | primary _ inductionHypothesis => exact inductionHypothesis known
  | identifier tagged => cases known; rw [Token.first, tagged]; decide
  | integer tagged _ => cases known; rw [Token.first, tagged]; decide
  | truth tagged => cases known; rw [Token.first, tagged]; decide
  | falsity tagged => cases known; rw [Token.first, tagged]; decide
  | grouped tagged _ _ _ => cases known; rw [Token.first, tagged]; decide
  | conditional tagged _ _ _ _ _ _ => cases known; rw [Token.first, tagged]; decide
  | alternative tagged _ _ _ _ _ _ _ _ _ => cases known; rw [Token.first, tagged]; decide
  | function tagged _ _ _ _ => cases known; rw [Token.first, tagged]; decide
  | item _ inductionHypothesis => exact inductionHypothesis known
  | items _ _ _ inductionHypothesis _ => exact inductionHypothesis known
  | name tagged => cases known; rw [Token.first, tagged]; decide
  | names tagged _ _ _ => cases known; rw [Token.first, tagged]; decide
  | binding tagged _ _ _ _ _ => cases known; rw [Token.first, tagged]; decide
  | bareReturn tagged _ => cases known; rw [Token.first, tagged]; decide
  | lastReturn tagged _ => cases known; rw [Token.first, tagged]; decide
  | returning tagged _ _ _ => cases known; rw [Token.first, tagged]; decide
  | expression _ _ inductionHypothesis =>
    cases known
    exact List.mem_cons_of_mem _ (List.mem_cons_of_mem _ (inductionHypothesis rfl))
  | _ => cases known

/-- A derivation starts with none of the tags that it cannot start with. -/
theorem Derives.first_ne {construct : Construct} {tokens rest : List Token} {tags : List Tag}
    (derivation : Derives construct tokens rest) (known : construct.openingTags = some tags)
    {tag : Tag} (other : tag ∉ tags) : (Token.first tokens).tag ≠ tag :=
  fun same => other (same ▸ derivation.opens known)

/-- Statements end where they start, or start as a statement does. -/
theorem Derives.statements_open {trees : List Statement} {tokens rest : List Token}
    (derivation : Derives (.statements trees) tokens rest) :
    tokens = rest ∨ (Token.first tokens).tag ∈ statementTags := by
  cases derivation with
  | empty => exact .inl rfl
  | statements first _ => exact .inr (first.opens rfl)

theorem first_tag_of_closed {rest after : List Token} (closed : Closed rest after) :
    (Token.first rest).tag = .rightBrace ∨ (Token.first rest).tag = .endOfInput := by
  cases closed with
  | brace tagged => exact .inl tagged
  | ended ended => exact .inr ended

end Monkey.Grammar
