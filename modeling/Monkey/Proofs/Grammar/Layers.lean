/-
This file ties the layers of the grammar to the precedences by which expressions
are read. A layer has the precedence of its operators, and an expression read
above some floor belongs to the loosest layer that binds more tightly. What is
derived from a layer is derived from every looser one.
-/

import Monkey.Program.Parser
import Monkey.Proofs.Grammar.Derivation

namespace Monkey.Grammar

/-! ### Precedences of layers -/

/-- The precedence of what a layer adds to the next tighter one. -/
def Layer.precedence : Layer → Precedence
  | equality => .equality
  | relation => .relation
  | sum => .sum
  | product => .product
  | sign => .sign
  | call => .call

/-- The loosest layer whose expressions can be read above a floor. A sign takes an operand of its
own layer, and nothing is read above a call. -/
def floorLayer : Precedence → Layer
  | .lowest => .equality
  | .equality => .relation
  | .relation => .sum
  | .sum => .product
  | .product | .sign | .call => .sign

/-- An expression of a layer is whole before these tokens: the next one binds no more tightly. -/
def Stops (layer : Layer) (rest : List Token) : Prop :=
  ¬ layer.precedence < (Token.first rest).tag.precedence

theorem rank_tighter {layer tighter : Layer} (below : layer.tighter = some tighter) :
    tighter.precedence.rank = layer.precedence.rank + 1 := by
  cases layer <;> cases below <;> rfl

theorem rank_floorLayer_le (floor : Precedence) :
    (floorLayer floor).precedence.rank ≤ floor.rank + 1 := by
  cases floor <;> decide

theorem rank_floorLayer_le_sign (floor : Precedence) :
    (floorLayer floor).precedence.rank ≤ Layer.sign.precedence.rank := by
  cases floor <;> decide

/-- Above a floor other than the highest, calls are read and every operator of its layer. -/
theorem floor_lt_of_floorLayer {floor : Precedence} {layer : Layer} (reads : floor ≠ .call)
    (looser : (floorLayer floor).precedence.rank ≤ layer.precedence.rank)
    (other : layer ≠ .sign) : floor < layer.precedence := by
  cases floor <;> cases layer <;>
    first | exact absurd rfl reads | exact absurd rfl other | decide | exact absurd looser (by decide)

/-! ### Operators of layers -/

/-- The layer that an operator belongs to. -/
def operatorLayer : InfixOperator → Layer
  | .equal | .notEqual => .equality
  | .less | .greater => .relation
  | .plus | .minus => .sum
  | .times | .divide => .product

theorem precedence_operatorLayer (operator : InfixOperator) :
    (operatorLayer operator).precedence = operator.precedence := by
  cases operator <;> rfl

theorem tighter_operatorLayer (operator : InfixOperator) :
    (operatorLayer operator).tighter = some (floorLayer operator.precedence) := by
  cases operator <;> rfl

theorem mem_operators {tag : Tag} {operator : InfixOperator}
    (found : tag.infixOperator? = some operator) :
    (tag, operator) ∈ (operatorLayer operator).operators := by
  cases tag <;> cases found <;> decide

theorem operatorLayer_of_mem {tag : Tag} {operator : InfixOperator} {layer : Layer}
    (member : (tag, operator) ∈ layer.operators) :
    operatorLayer operator = layer ∧ tag.infixOperator? = some operator := by
  cases layer <;>
    simp only [Layer.operators, List.mem_cons, Prod.mk.injEq, List.not_mem_nil, or_false] at member <;>
    rcases member with ⟨rfl, rfl⟩ | ⟨rfl, rfl⟩ <;> exact ⟨rfl, rfl⟩

/-- The tag of a sign between operands is none that is not such a sign. -/
theorem ne_of_operators {tag other : Tag} {operator : InfixOperator} {layer : Layer}
    (joins : (tag, operator) ∈ layer.operators) (plain : other.infixOperator? = none) :
    tag ≠ other := by
  rintro rfl
  have found := (operatorLayer_of_mem joins).2
  rw [plain] at found
  cases found

/-- The tag of a sign before an operand is none that is not such a sign. -/
theorem ne_of_signs {tag other : Tag} {operator : PrefixOperator}
    (stands : (tag, operator) ∈ signs) (plain : other ∉ signs.map Prod.fst) : tag ≠ other := by
  rintro rfl
  exact plain (List.mem_map_of_mem stands)

theorem precedence_of_infixOperator {tag : Tag} {operator : InfixOperator}
    (found : tag.infixOperator? = some operator) : tag.precedence = operator.precedence := by
  unfold Tag.precedence
  rw [found]

theorem precedence_leftParen : Tag.leftParen.precedence = .call :=
  rfl

/-- A tag that binds and is no operator is the parenthesis of a call. -/
theorem eq_leftParen_of_binds {tag : Tag} {floor : Precedence} (binds : floor < tag.precedence)
    (plain : tag.infixOperator? = none) : tag = .leftParen := by
  unfold Tag.precedence at binds
  rw [plain] at binds
  by_cases same : tag = .leftParen
  · exact same
  · simp only [if_neg same] at binds
    exact absurd binds (Nat.not_lt_zero _)

theorem rank_precedence_le (tag : Tag) : tag.precedence.rank ≤ Layer.call.precedence.rank := by
  cases tag <;> decide

theorem stops_call (rest : List Token) : Stops .call rest :=
  Nat.not_lt.mpr (rank_precedence_le _)

/-- No expression goes on with a tag exactly if the tag does not bind at all. -/
theorem not_mem_continuing_iff {tag : Tag} :
    tag ∉ continuing ↔ ¬ Precedence.lowest < tag.precedence := by
  cases tag <;> decide

/-! ### Looser layers -/

theorem eq_or_exists_tighter {layer looser : Layer}
    (above : looser.precedence.rank ≤ layer.precedence.rank) :
    looser = layer ∨ ∃ below, looser.tighter = some below ∧
      below.precedence.rank ≤ layer.precedence.rank := by
  cases looser <;> cases layer <;>
    first | exact .inl rfl | exact .inr ⟨_, rfl, by decide⟩ | exact absurd above (by decide)

/-- What is derived from a layer is derived from every looser layer. -/
theorem Derives.loosen {layer looser : Layer} {tree : Expression} {tokens rest : List Token}
    (derivation : Derives (.layer layer tree) tokens rest)
    (above : looser.precedence.rank ≤ layer.precedence.rank) :
    Derives (.layer looser tree) tokens rest := by
  induction steps : layer.precedence.rank - looser.precedence.rank generalizing looser with
  | zero =>
    obtain rfl | ⟨below, next, under⟩ := eq_or_exists_tighter above
    · exact derivation
    · have := rank_tighter next
      omega
  | succ steps inductionHypothesis =>
    obtain rfl | ⟨below, next, under⟩ := eq_or_exists_tighter above
    · exact derivation
    · have := rank_tighter next
      exact .descend next (inductionHypothesis under (by omega))

end Monkey.Grammar
