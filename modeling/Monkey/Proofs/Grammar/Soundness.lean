/-
This file shows that whatever is read without a diagnostic is derived from the
grammar. Reading an expression keeps one invariant: what stands to the left is
derived from some layer and is whole before the token that comes next. An
operator is only taken if its layer is no tighter than that one, so the left
side can be loosened to the layer of the operator, and the new left side is
whole again.
-/

import Monkey.Proofs.Grammar.Layers
import Monkey.Proofs.Reading.Acceptance

namespace Monkey.Grammar

open Reading

/-- Whatever these readings accept is derived from the grammar. Where a reading starts after an
opening sign or stops after a closing one, the derivation includes the sign. -/
structure Sound (readings : Readings) : Prop where
  names : ∀ tokens found rest, readings.names.Accepts tokens found rest →
    ∃ closing, closing.tag = .rightParen ∧ Derives (.names found) tokens (closing :: rest)
  operand : ∀ tokens tree rest, readings.operand.Accepts tokens tree rest →
    ∃ layer, Derives (.layer layer tree) tokens rest ∧ Stops layer rest ∧
      Layer.sign.precedence.rank ≤ layer.precedence.rank
  expression : ∀ floor tokens tree rest, (readings.expression floor).Accepts tokens tree rest →
    Derives (.layer (floorLayer floor) tree) tokens rest ∧
      ¬ floor < (Token.first rest).tag.precedence
  extension : ∀ floor left tokens tree rest,
    (readings.extension floor left).Accepts tokens tree rest →
    ∀ start layer, Derives (.layer layer left) start tokens → Stops layer tokens →
      (floorLayer floor).precedence.rank ≤ layer.precedence.rank →
      Derives (.layer (floorLayer floor) tree) start rest ∧
        ¬ floor < (Token.first rest).tag.precedence
  arguments : ∀ tokens trees rest, readings.arguments.Accepts tokens trees rest →
    ∀ opening : Token, opening.tag = .leftParen →
      Derives (.arguments trees) (opening :: tokens) rest
  expressions : ∀ tokens trees rest, readings.expressions.Accepts tokens trees rest →
    ∃ closing, closing.tag = .rightParen ∧ Derives (.list trees) tokens (closing :: rest)
  block : ∀ tokens trees rest, readings.block.Accepts tokens trees rest →
    ∃ after, Derives (.statements trees) tokens after ∧ Closed after rest
  statement : ∀ tokens tree rest, readings.statement.Accepts tokens tree rest →
    Derives (.statement tree) tokens rest
  statements : ∀ tokens trees rest, readings.statements.Accepts tokens trees rest →
    Derives (.statements trees) tokens rest ∧ (Token.first rest).tag = .endOfInput

namespace Sound

theorem mute : Sound .mute where
  names _ _ _ accepted := absurd accepted not_accepts_exhausted
  operand _ _ _ accepted := absurd accepted not_accepts_exhausted
  expression _ _ _ _ accepted := absurd accepted not_accepts_exhausted
  extension _ _ _ _ _ accepted := absurd accepted not_accepts_exhausted
  arguments _ _ _ accepted := absurd accepted not_accepts_exhausted
  expressions _ _ _ accepted := absurd accepted not_accepts_exhausted
  block _ _ _ accepted := absurd accepted not_accepts_exhausted
  statement _ _ _ accepted := absurd accepted not_accepts_exhausted
  statements _ _ _ accepted := absurd accepted not_accepts_exhausted

variable {inner : Readings} {tokens rest : List Token}

/-! ### Operands -/

theorem names_deeper (sound : Sound inner) {found : List String}
    (accepted : inner.deeper.names.Accepts tokens found rest) :
    ∃ closing, closing.tag = .rightParen ∧ Derives (.names found) tokens (closing :: rest) := by
  unfold Readings.deeper at accepted
  obtain ⟨token, middle, rfl, tagged, accepted⟩ :=
    (accepts_expect_bind (by decide)).mp accepted
  rw [accepts_upcoming_bind, accepts_ite] at accepted
  obtain ⟨separated, accepted⟩ | ⟨_, accepted⟩ := accepted
  · obtain ⟨comma, after, rfl, separates⟩ := (first_tag_eq (by decide)).mp separated
    rw [accepts_advance_bind, accepts_bind] at accepted
    obtain ⟨others, last, read, finished⟩ := accepted
    obtain ⟨rfl, rfl⟩ := accepts_pure.mp finished
    obtain ⟨closing, closes, derivation⟩ := sound.names _ _ _ read
    exact ⟨closing, closes, .names tagged separates derivation⟩
  · obtain ⟨closing, after, rfl, closes, finished⟩ :=
      (accepts_expect_bind (by decide)).mp accepted
    obtain ⟨rfl, rfl⟩ := accepts_pure.mp finished
    exact ⟨closing, closes, .name tagged⟩

theorem parameters (sound : Sound inner) {found : List String}
    (accepted : inner.parameters.Accepts tokens found rest) {opening : Token}
    (opens : opening.tag = .leftParen) : Derives (.parameters found) (opening :: tokens) rest := by
  unfold Readings.parameters at accepted
  rw [accepts_upcoming_bind, accepts_ite] at accepted
  obtain ⟨closed, accepted⟩ | ⟨_, accepted⟩ := accepted
  · obtain ⟨closing, after, rfl, closes⟩ := (first_tag_eq (by decide)).mp closed
    rw [accepts_advance_bind, accepts_pure] at accepted
    obtain ⟨rfl, rfl⟩ := accepted
    exact .noParameters opens closes
  · obtain ⟨closing, closes, derivation⟩ := sound.names _ _ _ accepted
    exact .parameters opens derivation closes

/-- A block that is read after its opening brace. -/
theorem braced (sound : Sound inner) {brace : Token} (opens : brace.tag = .leftBrace)
    {trees : List Statement} (accepted : inner.block.Accepts tokens trees rest) :
    Derives (.block trees) (brace :: tokens) rest := by
  obtain ⟨after, derivation, closed⟩ := sound.block _ _ _ accepted
  exact .block opens derivation closed

theorem conditional (sound : Sound inner) {tree : Expression} {word : Token}
    (tagged : word.tag = .condition) (accepted : inner.conditional.Accepts tokens tree rest) :
    Derives (.primary tree) (word :: tokens) rest := by
  unfold Readings.conditional at accepted
  obtain ⟨opening, _, rfl, opens, accepted⟩ := (accepts_expect_bind (by decide)).mp accepted
  obtain ⟨condition, _, readCondition, accepted⟩ := accepts_bind.mp accepted
  obtain ⟨closing, _, rfl, closes, accepted⟩ := (accepts_expect_bind (by decide)).mp accepted
  obtain ⟨brace, _, rfl, braces, accepted⟩ := (accepts_expect_bind (by decide)).mp accepted
  obtain ⟨consequence, after, readYes, accepted⟩ := accepts_bind.mp accepted
  have derived := (sound.expression _ _ _ _ readCondition).1
  have block := sound.braced braces readYes
  rw [accepts_upcoming_bind, accepts_ite] at accepted
  obtain ⟨turned, accepted⟩ | ⟨_, accepted⟩ := accepted
  · obtain ⟨otherwise, _, rfl, turns⟩ := (first_tag_eq (by decide)).mp turned
    rw [accepts_advance_bind] at accepted
    obtain ⟨brace, _, same, braces, accepted⟩ := (accepts_expect_bind (by decide)).mp accepted
    obtain ⟨alternative, last, readNo, finished⟩ := accepts_bind.mp accepted
    obtain ⟨rfl, rfl⟩ := accepts_pure.mp finished
    rw [List.tail_cons] at same
    subst same
    exact .alternative tagged opens derived closes block turns (sound.braced braces readNo)
  · obtain ⟨rfl, rfl⟩ := accepts_pure.mp accepted
    exact .conditional tagged opens derived closes block

theorem function (sound : Sound inner) {tree : Expression} {word : Token}
    (tagged : word.tag = .function) (accepted : inner.function.Accepts tokens tree rest) :
    Derives (.primary tree) (word :: tokens) rest := by
  unfold Readings.function at accepted
  obtain ⟨opening, _, rfl, opens, accepted⟩ := (accepts_expect_bind (by decide)).mp accepted
  obtain ⟨names, _, readNames, accepted⟩ := accepts_bind.mp accepted
  obtain ⟨brace, _, rfl, braces, accepted⟩ := (accepts_expect_bind (by decide)).mp accepted
  obtain ⟨body, _, readBody, finished⟩ := accepts_bind.mp accepted
  obtain ⟨rfl, rfl⟩ := accepts_pure.mp finished
  exact .function tagged (sound.parameters readNames opens) (sound.braced braces readBody)

theorem grouped (sound : Sound inner) {tree : Expression} {opening : Token}
    (opens : opening.tag = .leftParen)
    (accepted : Accepts (do
      let tree ← inner.expression .lowest
      let _ ← expect .rightParen
      return tree) tokens tree rest) :
    Derives (.primary tree) (opening :: tokens) rest := by
  obtain ⟨found, _, read, accepted⟩ := accepts_bind.mp accepted
  obtain ⟨closing, _, rfl, closes, finished⟩ := (accepts_expect_bind (by decide)).mp accepted
  obtain ⟨rfl, rfl⟩ := accepts_pure.mp finished
  exact .grouped opens (sound.expression _ _ _ _ read).1 closes

theorem prefixed (sound : Sound inner) {tree : Expression} {sign : Token}
    {operator : PrefixOperator} (stands : (sign.tag, operator) ∈ signs)
    (accepted : Accepts (do return .prefixed operator (← inner.expression .sign))
      tokens tree rest) :
    Derives (.layer .sign tree) (sign :: tokens) rest ∧ Stops .sign rest := by
  obtain ⟨operand, _, read, finished⟩ := accepts_bind.mp accepted
  obtain ⟨rfl, rfl⟩ := accepts_pure.mp finished
  obtain ⟨derivation, stops⟩ := sound.expression _ _ _ _ read
  exact ⟨.prefixed stands derivation, stops⟩

theorem operand_deeper (sound : Sound inner) {tree : Expression}
    (accepted : inner.deeper.operand.Accepts tokens tree rest) :
    ∃ layer, Derives (.layer layer tree) tokens rest ∧ Stops layer rest ∧
      Layer.sign.precedence.rank ≤ layer.precedence.rank := by
  have called : Derives (.primary tree) tokens rest → ∃ layer,
      Derives (.layer layer tree) tokens rest ∧ Stops layer rest ∧
        Layer.sign.precedence.rank ≤ layer.precedence.rank :=
    fun derivation => ⟨.call, .primary derivation, stops_call rest, by decide⟩
  unfold Readings.deeper at accepted
  replace accepted := accepts_advance_bind.mp accepted
  cases tokens with
  | nil => exact absurd accepted not_accepts_reject
  | cons token middle =>
    change (inner.operandAfter token).Accepts middle tree rest at accepted
    unfold Readings.operandAfter at accepted
    split at accepted
    · obtain ⟨rfl, rfl⟩ := accepts_pure.mp accepted
      exact called (.identifier ‹_›)
    · split at accepted
      · obtain ⟨rfl, rfl⟩ := accepts_pure.mp accepted
        exact called (.integer ‹_› ‹_›)
      · exact absurd accepted not_accepts_reject
    · obtain ⟨rfl, rfl⟩ := accepts_pure.mp accepted
      exact called (.truth ‹_›)
    · obtain ⟨rfl, rfl⟩ := accepts_pure.mp accepted
      exact called (.falsity ‹_›)
    · rename_i tagged
      obtain ⟨derivation, stops⟩ := sound.prefixed (by rw [tagged]; decide) accepted
      exact ⟨.sign, derivation, stops, le_rfl⟩
    · rename_i tagged
      obtain ⟨derivation, stops⟩ := sound.prefixed (by rw [tagged]; decide) accepted
      exact ⟨.sign, derivation, stops, le_rfl⟩
    · exact called (sound.grouped ‹_› accepted)
    · exact called (sound.conditional ‹_› accepted)
    · exact called (sound.function ‹_› accepted)
    · exact absurd accepted not_accepts_reject

/-! ### Expressions -/

/-- The left side of an operator or a call that has been taken is loosened to its layer, and what
is built is whole before the next token. -/
theorem extension_deeper (sound : Sound inner) {floor : Precedence} {left tree : Expression}
    (accepted : (inner.deeper.extension floor left).Accepts tokens tree rest) {start : List Token}
    {layer : Layer} (derivation : Derives (.layer layer left) start tokens)
    (stops : Stops layer tokens)
    (looser : (floorLayer floor).precedence.rank ≤ layer.precedence.rank) :
    Derives (.layer (floorLayer floor) tree) start rest ∧
      ¬ floor < (Token.first rest).tag.precedence := by
  unfold Readings.deeper at accepted
  replace accepted := accepts_upcoming_bind.mp accepted
  rw [accepts_ite] at accepted
  obtain ⟨binds, accepted⟩ | ⟨ends, finished⟩ := accepted
  · rw [accepts_advance_bind] at accepted
    obtain ⟨sign, middle, rfl⟩ := List.exists_cons_of_length_pos (length_pos_of_binding binds)
    change floor < sign.tag.precedence at binds
    change ¬ layer.precedence < sign.tag.precedence at stops
    cases found : sign.tag.infixOperator? with
    | some operator =>
      simp only [Token.first, List.tail_cons, found] at accepted
      obtain ⟨right, after, readRight, readOn⟩ := accepts_bind.mp accepted
      obtain ⟨derivedRight, stopsRight⟩ := sound.expression _ _ _ _ readRight
      rw [precedence_of_infixOperator found, ← precedence_operatorLayer] at binds stops
      -- What was built so far stopped at the sign, so it is no looser than the sign's layer.
      have joined := Derives.infixed (derivation.loosen (Nat.not_lt.mp stops))
        (mem_operators found) (tighter_operatorLayer operator) derivedRight
      rw [← precedence_operatorLayer] at stopsRight
      refine sound.extension _ _ _ _ _ readOn start _ joined stopsRight ?_
      exact (rank_floorLayer_le floor).trans binds
    | none =>
      simp only [Token.first, List.tail_cons, found] at accepted
      obtain ⟨given, after, readGiven, readOn⟩ := accepts_bind.mp accepted
      have paren : sign.tag = .leftParen := eq_leftParen_of_binds binds found
      have arguments := sound.arguments _ _ _ readGiven sign paren
      rw [paren, precedence_leftParen] at stops
      have callee : Derives (.layer .call left) start (sign :: middle) :=
        derivation.loosen (Nat.not_lt.mp stops)
      refine sound.extension _ _ _ _ _ readOn start .call (.call callee arguments)
        (stops_call after) ?_
      exact (rank_floorLayer_le_sign floor).trans (by decide)
  · obtain ⟨rfl, rfl⟩ := accepts_pure.mp finished
    exact ⟨derivation.loosen looser, ends⟩

theorem expression_deeper (sound : Sound inner) {floor : Precedence} {tree : Expression}
    (accepted : (inner.deeper.expression floor).Accepts tokens tree rest) :
    Derives (.layer (floorLayer floor) tree) tokens rest ∧
      ¬ floor < (Token.first rest).tag.precedence := by
  obtain ⟨left, middle, readLeft, readOn⟩ := accepts_bind.mp accepted
  obtain ⟨layer, derivation, stops, tight⟩ := sound.operand _ _ _ readLeft
  exact sound.extension _ _ _ _ _ readOn tokens layer derivation stops
    ((rank_floorLayer_le_sign floor).trans tight)

theorem arguments_deeper (sound : Sound inner) {trees : List Expression}
    (accepted : inner.deeper.arguments.Accepts tokens trees rest) {opening : Token}
    (opens : opening.tag = .leftParen) : Derives (.arguments trees) (opening :: tokens) rest := by
  unfold Readings.deeper at accepted
  replace accepted := accepts_upcoming_bind.mp accepted
  rw [accepts_ite] at accepted
  obtain ⟨closed, accepted⟩ | ⟨_, accepted⟩ := accepted
  · obtain ⟨closing, after, rfl, closes⟩ := (first_tag_eq (by decide)).mp closed
    rw [accepts_advance_bind, accepts_pure] at accepted
    obtain ⟨rfl, rfl⟩ := accepted
    exact .noArguments opens closes
  · obtain ⟨closing, closes, derivation⟩ := sound.expressions _ _ _ accepted
    exact .arguments opens derivation closes

theorem expressions_deeper (sound : Sound inner) {trees : List Expression}
    (accepted : inner.deeper.expressions.Accepts tokens trees rest) :
    ∃ closing, closing.tag = .rightParen ∧ Derives (.list trees) tokens (closing :: rest) := by
  unfold Readings.deeper at accepted
  obtain ⟨tree, middle, read, accepted⟩ := accepts_bind.mp accepted
  have derived := (sound.expression _ _ _ _ read).1
  rw [accepts_upcoming_bind, accepts_ite] at accepted
  obtain ⟨separated, accepted⟩ | ⟨_, accepted⟩ := accepted
  · obtain ⟨comma, after, rfl, separates⟩ := (first_tag_eq (by decide)).mp separated
    rw [accepts_advance_bind] at accepted
    obtain ⟨others, last, readOthers, finished⟩ := accepts_bind.mp accepted
    obtain ⟨rfl, rfl⟩ := accepts_pure.mp finished
    obtain ⟨closing, closes, derivation⟩ := sound.expressions _ _ _ readOthers
    exact ⟨closing, closes, .items derived separates derivation⟩
  · obtain ⟨closing, after, rfl, closes, finished⟩ :=
      (accepts_expect_bind (by decide)).mp accepted
    obtain ⟨rfl, rfl⟩ := accepts_pure.mp finished
    exact ⟨closing, closes, .item derived⟩

/-! ### Statements -/

/-- The optional semicolon after an expression that could not go on. -/
theorem terminated {after : List Token}
    (stops : ¬ Precedence.lowest < (Token.first after).tag.precedence)
    (skipped : (skip .semicolon).Accepts after () rest) : Terminated after rest := by
  obtain ⟨ended, rfl⟩ | ⟨_, rfl⟩ := accepts_skip.mp skipped
  · obtain ⟨semicolon, last, rfl, tagged⟩ := (first_tag_eq (by decide)).mp ended
    exact .semicolon tagged
  · exact .complete (not_mem_continuing_iff.mpr stops)

theorem binding (sound : Sound inner) {tree : Statement} {word : Token}
    (tagged : word.tag = .binding) (accepted : inner.binding.Accepts tokens tree rest) :
    Derives (.statement tree) (word :: tokens) rest := by
  unfold Readings.binding at accepted
  obtain ⟨name, _, rfl, named, accepted⟩ := (accepts_expect_bind (by decide)).mp accepted
  obtain ⟨sign, _, rfl, assigns, accepted⟩ := (accepts_expect_bind (by decide)).mp accepted
  obtain ⟨value, _, read, accepted⟩ := accepts_bind.mp accepted
  obtain ⟨_, _, skipped, finished⟩ := accepts_bind.mp accepted
  obtain ⟨rfl, rfl⟩ := accepts_pure.mp finished
  obtain ⟨derivation, stops⟩ := sound.expression _ _ _ _ read
  exact .binding tagged named assigns derivation (terminated stops skipped)

theorem returning (sound : Sound inner) {tree : Statement} {word : Token}
    (tagged : word.tag = .returning) (accepted : inner.returning.Accepts tokens tree rest) :
    Derives (.statement tree) (word :: tokens) rest := by
  unfold Readings.returning at accepted
  rw [accepts_upcoming_bind, accepts_ite] at accepted
  obtain ⟨bare, accepted⟩ | ⟨_, accepted⟩ := accepted
  · obtain ⟨_, _, skipped, finished⟩ := accepts_bind.mp accepted
    obtain ⟨rfl, rfl⟩ := accepts_pure.mp finished
    obtain ⟨ended, rfl⟩ | ⟨other, rfl⟩ := accepts_skip.mp skipped
    · obtain ⟨semicolon, last, rfl, ends⟩ := (first_tag_eq (by decide)).mp ended
      exact .bareReturn tagged ends
    · exact .lastReturn tagged (bare.resolve_left other)
  · obtain ⟨value, _, read, accepted⟩ := accepts_bind.mp accepted
    obtain ⟨_, _, skipped, finished⟩ := accepts_bind.mp accepted
    obtain ⟨rfl, rfl⟩ := accepts_pure.mp finished
    obtain ⟨derivation, stops⟩ := sound.expression _ _ _ _ read
    exact .returning tagged derivation (terminated stops skipped)

theorem statement_deeper (sound : Sound inner) {tree : Statement}
    (accepted : inner.deeper.statement.Accepts tokens tree rest) :
    Derives (.statement tree) tokens rest := by
  unfold Readings.deeper at accepted
  replace accepted := accepts_upcoming_bind.mp accepted
  split at accepted
  · rename_i same
    obtain ⟨word, middle, rfl, tagged⟩ := (first_tag_eq (by decide)).mp same
    exact sound.binding tagged (accepts_advance_bind.mp accepted)
  · rename_i same
    obtain ⟨word, middle, rfl, tagged⟩ := (first_tag_eq (by decide)).mp same
    exact sound.returning tagged (accepts_advance_bind.mp accepted)
  · obtain ⟨value, _, read, accepted⟩ := accepts_bind.mp accepted
    obtain ⟨_, _, skipped, finished⟩ := accepts_bind.mp accepted
    obtain ⟨rfl, rfl⟩ := accepts_pure.mp finished
    obtain ⟨derivation, stops⟩ := sound.expression _ _ _ _ read
    exact .expression derivation (terminated stops skipped)

/-- One statement and those after it, where each is read on its own. -/
theorem first_of_statements (sound : Sound inner) {others : Reading (List Statement)}
    {trees : List Statement}
    (accepted : Accepts (do
      let found ← attempt inner.statement
      return found.toList ++ (← others)) tokens trees rest) :
    ∃ tree more middle, trees = tree :: more ∧ Derives (.statement tree) tokens middle ∧
      others.Accepts middle more rest := by
  obtain ⟨found, middle, attempted, accepted⟩ := accepts_bind.mp accepted
  obtain ⟨tree, rfl, read⟩ := accepts_attempt.mp attempted
  obtain ⟨more, _, readMore, finished⟩ := accepts_bind.mp accepted
  obtain ⟨rfl, rfl⟩ := accepts_pure.mp finished
  exact ⟨tree, more, middle, rfl, sound.statement _ _ _ read, readMore⟩

theorem block_deeper (sound : Sound inner) {trees : List Statement}
    (accepted : inner.deeper.block.Accepts tokens trees rest) :
    ∃ after, Derives (.statements trees) tokens after ∧ Closed after rest := by
  unfold Readings.deeper at accepted
  replace accepted := accepts_upcoming_bind.mp accepted
  rw [accepts_ite, accepts_ite] at accepted
  obtain ⟨closed, accepted⟩ | ⟨_, ⟨ended, accepted⟩ | ⟨_, accepted⟩⟩ := accepted
  · obtain ⟨brace, after, rfl, tagged⟩ := (first_tag_eq (by decide)).mp closed
    rw [accepts_advance_bind, accepts_pure] at accepted
    obtain ⟨rfl, rfl⟩ := accepted
    exact ⟨_, .empty, .brace tagged⟩
  · obtain ⟨rfl, rfl⟩ := accepts_pure.mp accepted
    exact ⟨_, .empty, .ended ended⟩
  · obtain ⟨tree, more, middle, rfl, first, read⟩ := sound.first_of_statements accepted
    obtain ⟨after, others, closes⟩ := sound.block _ _ _ read
    exact ⟨after, .statements first others, closes⟩

theorem statements_deeper (sound : Sound inner) {trees : List Statement}
    (accepted : inner.deeper.statements.Accepts tokens trees rest) :
    Derives (.statements trees) tokens rest ∧ (Token.first rest).tag = .endOfInput := by
  unfold Readings.deeper at accepted
  replace accepted := accepts_upcoming_bind.mp accepted
  rw [accepts_ite] at accepted
  obtain ⟨ended, accepted⟩ | ⟨_, accepted⟩ := accepted
  · obtain ⟨rfl, rfl⟩ := accepts_pure.mp accepted
    exact ⟨.empty, ended⟩
  · obtain ⟨tree, more, middle, rfl, first, read⟩ := sound.first_of_statements accepted
    obtain ⟨others, ends⟩ := sound.statements _ _ _ read
    exact ⟨.statements first others, ends⟩

theorem deeper (sound : Sound inner) : Sound inner.deeper where
  names _ _ _ := sound.names_deeper
  operand _ _ _ := sound.operand_deeper
  expression _ _ _ _ := sound.expression_deeper
  extension _ _ _ _ _ accepted _ _ := sound.extension_deeper accepted
  arguments _ _ _ accepted _ := sound.arguments_deeper accepted
  expressions _ _ _ := sound.expressions_deeper
  block _ _ _ := sound.block_deeper
  statement _ _ _ := sound.statement_deeper
  statements _ _ _ := sound.statements_deeper

end Sound

theorem sound_atDepth (depth : Nat) : Sound (.atDepth depth) := by
  induction depth with
  | zero => exact .mute
  | succ depth inductionHypothesis => exact inductionHypothesis.deeper

end Monkey.Grammar
