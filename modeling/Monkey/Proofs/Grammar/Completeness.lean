/-
This file shows that whatever the grammar derives is read, and as the same tree.
Reading an expression takes the left side of an operator first and goes on from
there, whereas a derivation ends with the operator. So what is shown of a layer
is that reading passes through the tree: it comes to what reading on comes to
with the tree at the left.

The rules for the end of a statement say nothing of a semicolon or of an `else`
that follows. They need not: no statement starts with either, so neither can
follow a statement in a derivation.
-/

import Monkey.Proofs.Grammar.Pieces

namespace Monkey.Grammar

open Reading
open Readings (unbounded)

/-! ### What is shown of each construct -/

/-- A derivation is read. Where it includes an opening sign, the reading starts after it, and where
its reading takes a closing sign, that comes next. -/
def Construct.Read : Construct → List Token → List Token → Prop
  | .layer level tree, tokens, rest =>
    Stops level rest → (Token.first rest).tag ≠ .alternative → ∀ floor, floor ≠ .call →
      (floorLayer floor).precedence.rank ≤ level.precedence.rank →
      unbounded.expression floor tokens = unbounded.extension floor tree rest
  | .primary tree, tokens, rest =>
    (Token.first rest).tag ≠ .alternative → unbounded.operand.Accepts tokens tree rest
  | .list trees, tokens, rest =>
    ∀ closing after, rest = closing :: after → closing.tag = .rightParen →
      unbounded.expressions.Accepts tokens trees after
  | .arguments trees, tokens, rest =>
    ∃ opening middle, tokens = opening :: middle ∧ opening.tag = .leftParen ∧
      unbounded.arguments.Accepts middle trees rest
  | .names found, tokens, rest =>
    ∀ closing after, rest = closing :: after → closing.tag = .rightParen →
      unbounded.names.Accepts tokens found after
  | .parameters found, tokens, rest =>
    ∃ opening middle, tokens = opening :: middle ∧ opening.tag = .leftParen ∧
      unbounded.parameters.Accepts middle found rest
  | .block trees, tokens, rest =>
    ∃ opening middle, tokens = opening :: middle ∧ opening.tag = .leftBrace ∧
      unbounded.block.Accepts middle trees rest
  | .statement tree, tokens, rest =>
    (Token.first rest).tag ≠ .semicolon → (Token.first rest).tag ≠ .alternative →
      unbounded.statement.Accepts tokens tree rest
  | .statements trees, tokens, rest =>
    (∀ after, Closed rest after → unbounded.block.Accepts tokens trees after) ∧
      ((Token.first rest).tag = .endOfInput → unbounded.statements.Accepts tokens trees rest)

/-- A whole expression that has been read through is accepted. -/
theorem accepts_of_read {layer : Layer} {tree : Expression} {floor : Precedence}
    {tokens rest : List Token} (read : (Construct.layer layer tree).Read tokens rest)
    (reads : floor ≠ .call) (looser : (floorLayer floor).precedence.rank ≤ layer.precedence.rank)
    (stops : Stops layer rest) (ends : ¬ floor < (Token.first rest).tag.precedence)
    (other : (Token.first rest).tag ≠ .alternative) :
    (unbounded.expression floor).Accepts tokens tree rest := by
  unfold Accepts
  rw [read stops other floor reads looser]
  exact extension_of_stops ends

/-- An expression is accepted before a tag that does not bind. -/
theorem accepts_expression {tree : Expression} {tokens rest : List Token}
    (read : (Construct.expression tree).Read tokens rest)
    (ends : ¬ Precedence.lowest < (Token.first rest).tag.precedence)
    (other : (Token.first rest).tag ≠ .alternative) :
    (unbounded.expression .lowest).Accepts tokens tree rest := by
  refine accepts_of_read read (by decide) (by decide) ?_ ends other
  exact fun binds => ends (Nat.lt_trans (by decide) binds)

/-- An expression is accepted before a given sign that neither binds nor is an `else`. -/
theorem accepts_expression_before {tree : Expression} {sign : Token} {tag : Tag}
    {tokens rest : List Token} (read : (Construct.expression tree).Read tokens (sign :: rest))
    (tagged : sign.tag = tag) (ends : tag ∉ continuing) (other : tag ≠ .alternative) :
    (unbounded.expression .lowest).Accepts tokens tree (sign :: rest) :=
  accepts_expression read (not_mem_continuing_iff.mp (by rw [Token.first, tagged]; exact ends))
    (by rw [Token.first, tagged]; exact other)

/-! ### The cases -/

theorem read_infixed {layer tighter : Layer} {left right : Expression} {sign : Token}
    {operator : InfixOperator} {tokens middle rest : List Token}
    (joins : (sign.tag, operator) ∈ layer.operators) (below : layer.tighter = some tighter)
    (readLeft : (Construct.layer layer left).Read tokens (sign :: middle))
    (readRight : (Construct.layer tighter right).Read middle rest) :
    (Construct.layer layer (.infixed left operator right)).Read tokens rest := by
  intro stops other floor reads looser
  obtain ⟨rfl, found⟩ := operatorLayer_of_mem joins
  have precedence : sign.tag.precedence = (operatorLayer operator).precedence := by
    rw [precedence_of_infixOperator found, precedence_operatorLayer]
  obtain rfl : tighter = floorLayer operator.precedence :=
    Option.some.inj (below.symm.trans (tighter_operatorLayer operator))
  -- The sign binds as tightly as its layer and no more, so the left side is whole before it.
  have stopsLeft : Stops (operatorLayer operator) (sign :: middle) := by
    unfold Stops
    rw [Token.first, precedence]
    exact Nat.lt_irrefl _
  have notAlternative : (Token.first (sign :: middle)).tag ≠ .alternative := by
    rw [Token.first]
    rintro same
    rw [same] at found
    cases found
  have binds : floor < operator.precedence := by
    rw [← precedence_operatorLayer]
    exact floor_lt_of_floorLayer reads looser (by cases operator <;> decide)
  rw [readLeft stopsLeft notAlternative floor reads looser]
  -- The right side is read above the precedence of the sign, which is the next tighter layer.
  refine extension_of_operator binds found (accepts_of_read readRight ?_ le_rfl ?_ ?_ other)
  · cases operator <;> decide
  · refine fun tightly => stops (Nat.lt_trans ?_ tightly)
    exact Nat.lt_of_succ_le (rank_tighter below).ge
  · rw [← precedence_operatorLayer]
    exact stops

theorem read_prefixed {operand : Expression} {sign : Token} {operator : PrefixOperator}
    {middle rest : List Token} (stands : (sign.tag, operator) ∈ signs)
    (read : (Construct.layer .sign operand).Read middle rest) :
    (Construct.layer .sign (.prefixed operator operand)).Read (sign :: middle) rest := by
  intro stops other floor reads looser
  have accepted : (unbounded.expression .sign).Accepts middle operand rest :=
    accepts_of_read read (by decide) (by decide) stops stops other
  refine expression_of_operand (operand_cons_accepts.mpr ?_) floor
  simp only [signs, List.mem_cons, Prod.mk.injEq, List.not_mem_nil, or_false] at stands
  rcases stands with ⟨tagged, rfl⟩ | ⟨tagged, rfl⟩ <;>
    simp only [Readings.operandAfter, tagged] <;>
    exact accepts_bind.mpr ⟨operand, rest, accepted, accepts_pure.mpr ⟨rfl, rfl⟩⟩

theorem read_call {callee : Expression} {given : List Expression} {tokens middle rest : List Token}
    (readCallee : (Construct.layer .call callee).Read tokens middle)
    (readGiven : (Construct.arguments given).Read middle rest) :
    (Construct.layer .call (.call callee given)).Read tokens rest := by
  intro stops other floor reads looser
  obtain ⟨opening, inside, rfl, opens, accepted⟩ := readGiven
  have notAlternative : (Token.first (opening :: inside)).tag ≠ .alternative := by
    rw [Token.first, opens]
    decide
  rw [readCallee (stops_call _) notAlternative floor reads looser]
  exact extension_of_arguments reads opens accepted

theorem read_descend {layer tighter : Layer} {tree : Expression} {tokens rest : List Token}
    (below : layer.tighter = some tighter)
    (read : (Construct.layer tighter tree).Read tokens rest) :
    (Construct.layer layer tree).Read tokens rest := by
  intro stops other floor reads looser
  have step := rank_tighter below
  refine read (fun tightly => stops (Nat.lt_trans ?_ tightly)) other floor reads ?_
  · exact Nat.lt_of_succ_le step.ge
  · exact looser.trans (step ▸ Nat.le_succ _)

theorem read_primary {tree : Expression} {tokens rest : List Token}
    (read : (Construct.primary tree).Read tokens rest) :
    (Construct.layer .call tree).Read tokens rest :=
  fun _ other floor _ _ => expression_of_operand (read other) floor

/-- A token that is an operand by itself. -/
theorem read_token {token : Token} {tree : Expression} {rest : List Token}
    (whole : unbounded.operandAfter token = pure tree) :
    (Construct.primary tree).Read (token :: rest) rest := by
  intro _
  refine operand_cons_accepts.mpr ?_
  rw [whole]
  exact accepts_pure.mpr ⟨rfl, rfl⟩

theorem read_grouped {opening closing : Token} {tree : Expression} {middle rest : List Token}
    (opens : opening.tag = .leftParen)
    (read : (Construct.expression tree).Read middle (closing :: rest))
    (closes : closing.tag = .rightParen) :
    (Construct.primary tree).Read (opening :: middle) rest := by
  intro _
  refine operand_cons_accepts.mpr ?_
  simp only [Readings.operandAfter, opens]
  refine accepts_bind.mpr ⟨tree, _, accepts_expression_before read closes (by decide) (by decide),
    (accepts_expect_bind (by decide)).mpr ⟨closing, rest, rfl, closes, ?_⟩⟩
  exact accepts_pure.mpr ⟨rfl, rfl⟩

theorem read_conditional {word opening closing : Token} {condition : Expression}
    {consequence : List Statement} {middle yes rest : List Token} (tagged : word.tag = .condition)
    (opens : opening.tag = .leftParen)
    (readCondition : (Construct.expression condition).Read middle (closing :: yes))
    (closes : closing.tag = .rightParen) (readBlock : (Construct.block consequence).Read yes rest) :
    (Construct.primary (.conditional condition consequence none)).Read
      (word :: opening :: middle) rest := by
  intro other
  obtain ⟨brace, inside, rfl, braced, block⟩ := readBlock
  refine operand_cons_accepts.mpr ?_
  simp only [Readings.operandAfter, tagged, Readings.conditional]
  refine (accepts_expect_bind (by decide)).mpr ⟨opening, _, rfl, opens, ?_⟩
  refine accepts_bind.mpr ⟨condition, _,
    accepts_expression_before readCondition closes (by decide) (by decide), ?_⟩
  refine (accepts_expect_bind (by decide)).mpr ⟨closing, _, rfl, closes, ?_⟩
  refine (accepts_expect_bind (by decide)).mpr ⟨brace, _, rfl, braced, ?_⟩
  refine accepts_bind.mpr ⟨consequence, rest, block, ?_⟩
  rw [accepts_upcoming_bind, if_neg other]
  exact accepts_pure.mpr ⟨rfl, rfl⟩

theorem read_alternative {word opening closing otherwise : Token} {condition : Expression}
    {consequence alternative : List Statement} {middle yes no rest : List Token}
    (tagged : word.tag = .condition) (opens : opening.tag = .leftParen)
    (readCondition : (Construct.expression condition).Read middle (closing :: yes))
    (closes : closing.tag = .rightParen)
    (readBlock : (Construct.block consequence).Read yes (otherwise :: no))
    (turns : otherwise.tag = .alternative)
    (readOther : (Construct.block alternative).Read no rest) :
    (Construct.primary (.conditional condition consequence (some alternative))).Read
      (word :: opening :: middle) rest := by
  intro _
  obtain ⟨brace, inside, rfl, braced, block⟩ := readBlock
  obtain ⟨second, within, rfl, bracedToo, blockToo⟩ := readOther
  have goes : (Token.first (otherwise :: second :: within)).tag = .alternative := turns
  refine operand_cons_accepts.mpr ?_
  simp only [Readings.operandAfter, tagged, Readings.conditional]
  refine (accepts_expect_bind (by decide)).mpr ⟨opening, _, rfl, opens, ?_⟩
  refine accepts_bind.mpr ⟨condition, _,
    accepts_expression_before readCondition closes (by decide) (by decide), ?_⟩
  refine (accepts_expect_bind (by decide)).mpr ⟨closing, _, rfl, closes, ?_⟩
  refine (accepts_expect_bind (by decide)).mpr ⟨brace, _, rfl, braced, ?_⟩
  refine accepts_bind.mpr ⟨consequence, _, block, ?_⟩
  rw [accepts_upcoming_bind, if_pos goes, accepts_advance_bind]
  refine (accepts_expect_bind (by decide)).mpr ⟨second, _, rfl, bracedToo, ?_⟩
  exact accepts_bind.mpr ⟨alternative, rest, blockToo, accepts_pure.mpr ⟨rfl, rfl⟩⟩

theorem read_function {word : Token} {names : List String} {body : List Statement}
    {middle inside rest : List Token} (tagged : word.tag = .function)
    (readNames : (Construct.parameters names).Read middle inside)
    (readBlock : (Construct.block body).Read inside rest) :
    (Construct.primary (.function names body)).Read (word :: middle) rest := by
  intro _
  obtain ⟨opening, listed, rfl, opens, parameters⟩ := readNames
  obtain ⟨brace, within, rfl, braced, block⟩ := readBlock
  refine operand_cons_accepts.mpr ?_
  simp only [Readings.operandAfter, tagged, Readings.function]
  refine (accepts_expect_bind (by decide)).mpr ⟨opening, _, rfl, opens, ?_⟩
  refine accepts_bind.mpr ⟨names, _, parameters, ?_⟩
  refine (accepts_expect_bind (by decide)).mpr ⟨brace, _, rfl, braced, ?_⟩
  exact accepts_bind.mpr ⟨body, rest, block, accepts_pure.mpr ⟨rfl, rfl⟩⟩

/-- A list in parentheses is not empty, so no parenthesis closes at once. -/
theorem read_arguments {opening closing : Token} {trees : List Expression}
    {middle rest : List Token} (opens : opening.tag = .leftParen)
    (starts : (Token.first middle).tag ≠ .rightParen)
    (readList : (Construct.list trees).Read middle (closing :: rest))
    (closes : closing.tag = .rightParen) :
    (Construct.arguments trees).Read (opening :: middle) rest :=
  ⟨opening, middle, rfl, opens,
    accepts_arguments starts (readList closing rest rfl closes)⟩

theorem read_noParameters {opening closing : Token} {rest : List Token}
    (opens : opening.tag = .leftParen) (closes : closing.tag = .rightParen) :
    (Construct.parameters []).Read (opening :: closing :: rest) rest := by
  have closed : (Token.first (closing :: rest)).tag = .rightParen := closes
  refine ⟨opening, _, rfl, opens, ?_⟩
  simp only [Readings.parameters]
  rw [accepts_upcoming_bind, if_pos closed, accepts_advance_bind]
  exact accepts_pure.mpr ⟨rfl, rfl⟩

theorem read_parameters {opening closing : Token} {names : List String}
    {middle rest : List Token} (opens : opening.tag = .leftParen)
    (starts : (Token.first middle).tag ≠ .rightParen)
    (readNames : (Construct.names names).Read middle (closing :: rest))
    (closes : closing.tag = .rightParen) :
    (Construct.parameters names).Read (opening :: middle) rest := by
  refine ⟨opening, _, rfl, opens, ?_⟩
  simp only [Readings.parameters]
  rw [accepts_upcoming_bind, if_neg starts]
  exact readNames closing rest rfl closes

/-- An expression at the end of a statement is read up to that end. -/
theorem accepts_ending {tree : Expression} {whole : Expression → Statement}
    {tokens after rest : List Token} (read : (Construct.expression tree).Read tokens after)
    (ends : Terminated after rest) (noSemicolon : (Token.first rest).tag ≠ .semicolon)
    (noElse : (Token.first rest).tag ≠ .alternative) :
    Accepts (do
      let value ← unbounded.expression .lowest
      skip .semicolon
      return whole value) tokens (whole tree) rest := by
  cases ends with
  | semicolon tagged =>
    exact accepts_bind.mpr ⟨tree, _,
      accepts_expression_before read tagged (by decide) (by decide),
      accepts_bind.mpr ⟨(), _, skip_of_tag tagged, accepts_pure.mpr ⟨rfl, rfl⟩⟩⟩
  | complete stops =>
    exact accepts_bind.mpr ⟨tree, _,
      accepts_expression read (not_mem_continuing_iff.mp stops) noElse,
      accepts_bind.mpr ⟨(), _, skip_of_ne noSemicolon, accepts_pure.mpr ⟨rfl, rfl⟩⟩⟩

/-- A binding is accepted if what comes after its sign is. -/
theorem accepts_binding {word name sign : Token} {tree : Statement} {middle rest : List Token}
    (tagged : word.tag = .binding) (named : name.tag = .identifier) (assigns : sign.tag = .assign)
    (accepted : Accepts (do
      let value ← unbounded.expression .lowest
      skip .semicolon
      return .binding name.text value) middle tree rest) :
    unbounded.statement.Accepts (word :: name :: sign :: middle) tree rest := by
  refine accepts_statement_of_binding tagged ?_
  unfold Readings.binding
  refine (accepts_expect_bind (by decide)).mpr ⟨name, _, rfl, named, ?_⟩
  exact (accepts_expect_bind (by decide)).mpr ⟨sign, _, rfl, assigns, accepted⟩

theorem read_binding {word name sign : Token} {value : Expression}
    {middle after rest : List Token} (tagged : word.tag = .binding)
    (named : name.tag = .identifier) (assigns : sign.tag = .assign)
    (read : (Construct.expression value).Read middle after) (ends : Terminated after rest) :
    (Construct.statement (.binding name.text value)).Read (word :: name :: sign :: middle) rest :=
  fun noSemicolon noElse =>
    accepts_binding tagged named assigns (accepts_ending read ends noSemicolon noElse)

/-- A bare return with a semicolon is accepted whatever comes next. -/
theorem accepts_bareReturn {word semicolon : Token} {rest : List Token}
    (tagged : word.tag = .returning) (ends : semicolon.tag = .semicolon) :
    unbounded.statement.Accepts (word :: semicolon :: rest) (.returning none) rest := by
  have ended : (Token.first (semicolon :: rest)).tag = .semicolon := ends
  refine accepts_statement_of_returning tagged ?_
  unfold Readings.returning
  rw [accepts_upcoming_bind, if_pos (.inl ended)]
  exact accepts_bind.mpr ⟨(), rest, skip_of_tag ended, accepts_pure.mpr ⟨rfl, rfl⟩⟩

theorem read_bareReturn {word semicolon : Token} {rest : List Token}
    (tagged : word.tag = .returning) (ends : semicolon.tag = .semicolon) :
    (Construct.statement (.returning none)).Read (word :: semicolon :: rest) rest :=
  fun _ _ => accepts_bareReturn tagged ends

theorem read_lastReturn {word : Token} {rest : List Token} (tagged : word.tag = .returning)
    (ends : (Token.first rest).tag = .rightBrace ∨ (Token.first rest).tag = .endOfInput) :
    (Construct.statement (.returning none)).Read (word :: rest) rest := by
  intro noSemicolon _
  refine accepts_statement_of_returning tagged ?_
  unfold Readings.returning
  rw [accepts_upcoming_bind, if_pos (.inr ends)]
  exact accepts_bind.mpr ⟨(), rest, skip_of_ne noSemicolon, accepts_pure.mpr ⟨rfl, rfl⟩⟩

/-- A return is accepted if what comes after its word starts an operand and is. -/
theorem accepts_returning {word : Token} {tree : Statement} {middle rest : List Token}
    (tagged : word.tag = .returning) (starts : (Token.first middle).tag ∈ operandTags)
    (accepted : Accepts (do
      let value ← unbounded.expression .lowest
      skip .semicolon
      return .returning (some value)) middle tree rest) :
    unbounded.statement.Accepts (word :: middle) tree rest := by
  have goes : ¬ ((Token.first middle).tag = .semicolon ∨ (Token.first middle).tag = .rightBrace ∨
      (Token.first middle).tag = .endOfInput) := by
    rintro (same | same | same) <;> rw [same] at starts <;> exact absurd starts (by decide)
  refine accepts_statement_of_returning tagged ?_
  unfold Readings.returning
  rw [accepts_upcoming_bind, if_neg goes]
  exact accepted

theorem read_returning {word : Token} {value : Expression} {middle after rest : List Token}
    (tagged : word.tag = .returning) (starts : (Token.first middle).tag ∈ operandTags)
    (read : (Construct.expression value).Read middle after) (ends : Terminated after rest) :
    (Construct.statement (.returning (some value))).Read (word :: middle) rest := by
  intro noSemicolon noElse
  have whole : Statement.returning (some value) = (fun found => .returning (some found)) value := rfl
  rw [whole]
  exact accepts_returning tagged starts (accepts_ending read ends noSemicolon noElse)

/-! ### Statements one after another -/

theorem read_empty {tokens : List Token} : (Construct.statements []).Read tokens tokens := by
  constructor
  · intro after closed
    rw [unbounded_eq_deeper]
    simp only [Readings.deeper]
    rw [accepts_upcoming_bind]
    cases closed with
    | @brace brace _ tagged =>
      have closes : (Token.first (brace :: after)).tag = .rightBrace := tagged
      rw [if_pos closes, accepts_advance_bind]
      exact accepts_pure.mpr ⟨rfl, rfl⟩
    | ended ended =>
      rw [ended, if_neg (by decide), if_pos rfl]
      exact accepts_pure.mpr ⟨rfl, rfl⟩
  · intro ended
    rw [unbounded_eq_deeper]
    simp only [Readings.deeper]
    rw [accepts_upcoming_bind, if_pos ended]
    exact accepts_pure.mpr ⟨rfl, rfl⟩

/-- A statement is accepted where another one or the end of the statements comes next. -/
theorem accepts_statement {tree : Statement} {tokens middle rest : List Token}
    (read : (Construct.statement tree).Read tokens middle)
    (follows : middle = rest ∨ (Token.first middle).tag ∈ statementTags)
    (ends : (Token.first rest).tag = .rightBrace ∨ (Token.first rest).tag = .endOfInput) :
    unbounded.statement.Accepts tokens tree middle := by
  have next : (Token.first middle).tag ∈ .rightBrace :: .endOfInput :: statementTags := by
    obtain rfl | starts := follows
    · obtain ends | ends := ends <;> rw [ends] <;> decide
    · exact List.mem_cons_of_mem _ (List.mem_cons_of_mem _ starts)
  refine read ?_ ?_ <;> rintro same <;> rw [same] at next <;> exact absurd next (by decide)

theorem read_statements {tree : Statement} {trees : List Statement}
    {tokens middle rest : List Token} (starts : (Token.first tokens).tag ∈ statementTags)
    (follows : middle = rest ∨ (Token.first middle).tag ∈ statementTags)
    (readFirst : (Construct.statement tree).Read tokens middle)
    (readOthers : (Construct.statements trees).Read middle rest) :
    (Construct.statements (tree :: trees)).Read tokens rest := by
  have noBrace : (Token.first tokens).tag ≠ .rightBrace := by
    rintro same
    rw [same] at starts
    exact absurd starts (by decide)
  have noEnd : (Token.first tokens).tag ≠ .endOfInput := by
    rintro same
    rw [same] at starts
    exact absurd starts (by decide)
  constructor
  · intro after closed
    have accepted := accepts_statement readFirst follows (first_tag_of_closed closed)
    rw [unbounded_eq_deeper]
    simp only [Readings.deeper]
    rw [accepts_upcoming_bind, if_neg noBrace, if_neg noEnd]
    exact accepts_bind.mpr ⟨some tree, middle, accepts_attempt.mpr ⟨tree, rfl, accepted⟩,
      accepts_bind.mpr ⟨trees, after, readOthers.1 after closed, accepts_pure.mpr ⟨rfl, rfl⟩⟩⟩
  · intro ended
    have accepted := accepts_statement readFirst follows (.inr ended)
    rw [unbounded_eq_deeper]
    simp only [Readings.deeper]
    rw [accepts_upcoming_bind, if_neg noEnd]
    exact accepts_bind.mpr ⟨some tree, middle, accepts_attempt.mpr ⟨tree, rfl, accepted⟩,
      accepts_bind.mpr ⟨trees, rest, readOthers.2 ended, accepts_pure.mpr ⟨rfl, rfl⟩⟩⟩

/-- Whatever derives is read. -/
theorem read_of_derives {construct : Construct} {tokens rest : List Token}
    (derivation : Derives construct tokens rest) : construct.Read tokens rest := by
  induction derivation with
  | infixed _ joins below _ readLeft readRight => exact read_infixed joins below readLeft readRight
  | prefixed stands _ readOperand => exact read_prefixed stands readOperand
  | call _ _ readCallee readGiven => exact read_call readCallee readGiven
  | descend below _ readTighter => exact read_descend below readTighter
  | primary _ readPrimary => exact read_primary readPrimary
  | identifier tagged => exact read_token (by simp only [Readings.operandAfter, tagged])
  | integer tagged fits => exact read_token (by simp only [Readings.operandAfter, tagged, fits])
  | truth tagged => exact read_token (by simp only [Readings.operandAfter, tagged])
  | falsity tagged => exact read_token (by simp only [Readings.operandAfter, tagged])
  | grouped opens _ closes readInner => exact read_grouped opens readInner closes
  | conditional tagged opens _ closes _ readCondition readBlock =>
    exact read_conditional tagged opens readCondition closes readBlock
  | alternative tagged opens _ closes _ turns _ readCondition readBlock readOther =>
    exact read_alternative tagged opens readCondition closes readBlock turns readOther
  | function tagged _ _ readNames readBlock => exact read_function tagged readNames readBlock
  | item _ readInner =>
    rintro closing after rfl closes
    exact accepts_item closes (accepts_expression_before readInner closes (by decide) (by decide))
  | items _ separates _ readInner readOthers =>
    rintro closing after rfl closes
    exact accepts_items separates
      (accepts_expression_before readInner separates (by decide) (by decide))
      (readOthers closing after rfl closes)
  | noArguments opens closes => exact ⟨_, _, rfl, opens, accepts_noArguments closes⟩
  | arguments opens inner closes readList =>
    exact read_arguments opens (inner.first_ne rfl (by decide)) readList closes
  | name named =>
    rintro closing after rfl closes
    exact accepts_name named closes
  | names named separates _ readOthers =>
    rintro closing after rfl closes
    exact accepts_names named separates (readOthers closing after rfl closes)
  | noParameters opens closes => exact read_noParameters opens closes
  | parameters opens inner closes readNames =>
    exact read_parameters opens (inner.first_ne rfl (by decide)) readNames closes
  | block opens _ closes readStatements =>
    exact ⟨_, _, rfl, opens, readStatements.1 _ closes⟩
  | binding tagged named assigns _ ends readValue =>
    exact read_binding tagged named assigns readValue ends
  | bareReturn tagged ends => exact read_bareReturn tagged ends
  | lastReturn tagged ends => exact read_lastReturn tagged ends
  | returning tagged inner ends readValue =>
    exact read_returning tagged (inner.opens rfl) readValue ends
  | expression inner ends readValue =>
    exact fun noSemicolon noElse => accepts_statement_of_expression (inner.opens rfl)
      (accepts_ending readValue ends noSemicolon noElse)
  | empty => exact read_empty
  | statements first others readFirst readOthers =>
    exact read_statements (first.opens rfl) others.statements_open readFirst readOthers

end Monkey.Grammar
