/-
This file shows that the bound on the depth never shows. Readings call one
another under a bound; a reading of `n` tokens stays below `4 * n + 4`, because
at most four calls are entered between one token and the next. At every bound
from there on a reading comes to something, and to the same thing.

`Readings.unbounded` are the readings without a bound. They are what they do
with themselves in the place of the inner readings, which is all that has to be
known about them.
-/

import Monkey.Proofs.Reading.Remainder

namespace Monkey.Reading

variable {Result Following : Type}

/-! ### Agreement at some tokens -/

/-- Two readings come to something at some tokens, and to the same thing. -/
def AgreeAt (first second : Reading Result) (tokens : List Token) : Prop :=
  ∃ outcome, first tokens = some outcome ∧ second tokens = some outcome

namespace AgreeAt

variable {tokens : List Token}

theorem eq {first second : Reading Result} (agree : AgreeAt first second tokens) :
    first tokens = second tokens := by
  obtain ⟨outcome, left, right⟩ := agree
  rw [left, right]

theorem congr_right {first second third : Reading Result} (agree : AgreeAt first second tokens)
    (same : second tokens = third tokens) : AgreeAt first third tokens := by
  obtain ⟨outcome, left, right⟩ := agree
  exact ⟨outcome, left, same ▸ right⟩

theorem pure (result : Result) : AgreeAt (pure result) (pure result) tokens :=
  ⟨_, rfl, rfl⟩

theorem reject (reported : Diagnostic) :
    AgreeAt (reject reported : Reading Result) (Reading.reject reported) tokens :=
  ⟨_, rfl, rfl⟩

theorem upcoming : AgreeAt upcoming Reading.upcoming tokens :=
  ⟨_, rfl, rfl⟩

theorem advance : AgreeAt advance Reading.advance tokens :=
  ⟨_, rfl, rfl⟩

/-- Sequences agree if their first parts do, and the second ones wherever the first may stop. -/
theorem bind {first first' : Reading Result} {second second' : Result → Reading Following}
    (agree : AgreeAt first first' tokens)
    (next : ∀ result noted rest, first tokens = some (.accepted result noted rest) →
      AgreeAt (second result) (second' result) rest) :
    AgreeAt (first >>= second) (first' >>= second') tokens := by
  obtain ⟨outcome, left, right⟩ := agree
  change AgreeAt (andThen first second) (andThen first' second') tokens
  cases outcome with
  | rejected reported noted resume =>
    exact ⟨.rejected reported noted resume, by simp only [andThen, left],
      by simp only [andThen, right]⟩
  | accepted result noted rest =>
    obtain ⟨final, leftFinal, rightFinal⟩ := next result noted rest left
    exact ⟨final.after noted, by simp only [andThen, left, leftFinal, Option.map_some],
      by simp only [andThen, right, rightFinal, Option.map_some]⟩

/-- As `bind`, when all that the first part tells is that tokens are left or taken. -/
theorem bind_within {first first' : Reading Result} {second second' : Result → Reading Following}
    (agree : AgreeAt first first' tokens) (leaves : first.LeavesEnd)
    (next : ∀ result rest, rest <:+ tokens → AgreeAt (second result) (second' result) rest) :
    AgreeAt (first >>= second) (first' >>= second') tokens :=
  agree.bind fun result _ rest found => next result rest (leaves _ _ found)

theorem bind_tail {first first' : Reading Result} {second second' : Result → Reading Following}
    (agree : AgreeAt first first' tokens) (takes : first.TakesFirst)
    (next : ∀ result rest, rest <:+ tokens.tail → AgreeAt (second result) (second' result) rest) :
    AgreeAt (first >>= second) (first' >>= second') tokens :=
  agree.bind fun result _ rest found => next result rest (takes _ _ found)

theorem upcoming_bind {second second' : Tag → Reading Following}
    (next : AgreeAt (second (Token.first tokens).tag) (second' (Token.first tokens).tag) tokens) :
    AgreeAt (Reading.upcoming >>= second) (Reading.upcoming >>= second') tokens := by
  refine AgreeAt.upcoming.bind fun result noted rest found => ?_
  cases found
  exact next

theorem ite {condition : Prop} [Decidable condition] {first first' second second' : Reading Result}
    (holds : condition → AgreeAt first first' tokens)
    (fails : ¬ condition → AgreeAt second second' tokens) :
    AgreeAt (if condition then first else second) (if condition then first' else second')
      tokens := by
  split
  · exact holds ‹_›
  · exact fails ‹_›

theorem expect (expected : Tag) :
    AgreeAt (expect expected) (Reading.expect expected) tokens :=
  upcoming_bind (ite (fun _ => advance) fun _ => reject _)

theorem skip (tag : Tag) : AgreeAt (skip tag) (Reading.skip tag) tokens :=
  upcoming_bind (ite (fun _ => advance.bind fun _ _ _ _ => pure _) fun _ => pure _)

theorem attempt {first second : Reading Result} (agree : AgreeAt first second tokens) :
    AgreeAt first.attempt second.attempt tokens := by
  obtain ⟨outcome, left, right⟩ := agree
  unfold AgreeAt Reading.attempt
  rw [left, right]
  cases outcome <;> exact ⟨_, rfl, rfl⟩

end AgreeAt

/-! ### Tokens that are there -/

/-- A tag other than that of the end of the input is that of a token. -/
theorem length_pos_of_tag {tokens : List Token}
    (tagged : (Token.first tokens).tag ≠ .endOfInput) : 0 < tokens.length := by
  cases tokens with
  | nil => exact absurd rfl tagged
  | cons token rest => exact Nat.succ_pos _

theorem length_pos_of_binding {tokens : List Token} {floor : Precedence}
    (binds : floor < (Token.first tokens).tag.precedence) : 0 < tokens.length := by
  refine length_pos_of_tag fun ended => ?_
  rw [ended] at binds
  exact absurd binds (Nat.not_lt_zero _)

theorem length_le_of_suffix_tail {rest tokens : List Token} (within : rest <:+ tokens.tail) :
    rest.length ≤ tokens.length - 1 := by
  simpa using within.length_le

/-- An expected token is taken from the tokens. -/
theorem length_lt_of_expect {expected : Tag} (tagged : expected ≠ .endOfInput)
    {tokens rest : List Token} {result : Token} {noted : List Diagnostic}
    (found : expect expected tokens = some (.accepted result noted rest)) :
    rest.length < tokens.length := by
  obtain ⟨_, _, _, rejected, _⟩ | ⟨tag, _, _, final, accepted, last, _⟩ := bind_eq_some found
  · cases rejected
  · cases accepted
    split at last
    · rename_i same
      cases last
      rename_i ended
      cases ended
      have present := length_pos_of_tag (same ▸ tagged)
      rw [List.length_tail]
      exact Nat.sub_lt present Nat.one_pos
    · cases last
      rename_i ended
      cases ended

end Monkey.Reading

namespace Monkey

open Reading

/-! ### Agreement of all readings -/

/-- The readings of two kinds agree at tokens so few that no bound up to `limit` is met. -/
structure Agreement (limit : Nat) (first second : Readings) : Prop where
  names : ∀ tokens, tokens.length + 1 ≤ limit → AgreeAt first.names second.names tokens
  operand : ∀ tokens, 4 * tokens.length + 1 ≤ limit → AgreeAt first.operand second.operand tokens
  expression : ∀ floor tokens, 4 * tokens.length + 2 ≤ limit →
    AgreeAt (first.expression floor) (second.expression floor) tokens
  extension : ∀ floor left tokens, 4 * tokens.length + 1 ≤ limit →
    AgreeAt (first.extension floor left) (second.extension floor left) tokens
  arguments : ∀ tokens, 4 * tokens.length + 4 ≤ limit →
    AgreeAt first.arguments second.arguments tokens
  expressions : ∀ tokens, 4 * tokens.length + 3 ≤ limit →
    AgreeAt first.expressions second.expressions tokens
  block : ∀ tokens, 4 * tokens.length + 4 ≤ limit → AgreeAt first.block second.block tokens
  statement : ∀ tokens, 4 * tokens.length + 3 ≤ limit →
    AgreeAt first.statement second.statement tokens
  statements : ∀ tokens, 4 * tokens.length + 4 ≤ limit →
    AgreeAt first.statements second.statements tokens

namespace Agreement

variable {limit : Nat} {first second : Readings}

theorem zero : Agreement 0 first second := by
  constructor <;> intros <;> omega

theorem names_deeper (agree : Agreement limit first second) (tokens : List Token)
    (bounded : tokens.length + 1 ≤ limit + 1) :
    AgreeAt first.deeper.names second.deeper.names tokens := by
  refine (AgreeAt.expect _).bind fun name noted rest found => AgreeAt.upcoming_bind ?_
  have shorter := length_lt_of_expect (by decide) found
  refine AgreeAt.ite (fun _ => ?_) fun _ => (AgreeAt.expect _).bind fun _ _ _ _ => .pure _
  refine AgreeAt.advance.bind_within takesFirst_advance.leavesEnd fun _ after within => ?_
  have := within.length_le
  exact (agree.names after (by omega)).bind fun _ _ _ _ => .pure _

theorem parameters (agree : Agreement limit first second) (tokens : List Token)
    (bounded : tokens.length + 1 ≤ limit) :
    AgreeAt first.parameters second.parameters tokens :=
  AgreeAt.upcoming_bind (AgreeAt.ite (fun _ => AgreeAt.advance.bind fun _ _ _ _ => .pure _)
    fun _ => agree.names tokens bounded)

theorem conditional (agree : Agreement limit first second) (leaves : Remainders first)
    (tokens : List Token) (bounded : 4 * tokens.length + 4 ≤ limit) :
    AgreeAt first.conditional second.conditional tokens := by
  have blocks : ∀ rest, rest <:+ tokens → AgreeAt first.block second.block rest := by
    intro rest within
    have := within.length_le
    exact agree.block rest (by omega)
  refine (AgreeAt.expect _).bind_within (leavesEnd_expect _) fun _ condition conditionEnd => ?_
  have few := conditionEnd.length_le
  refine (agree.expression _ condition (by omega)).bind_within (leaves.expression _).leavesEnd
    fun _ closing closingEnd => ?_
  refine (AgreeAt.expect _).bind_within (leavesEnd_expect _) fun _ brace braceEnd => ?_
  refine (AgreeAt.expect _).bind_within (leavesEnd_expect _) fun _ yes yesEnd => ?_
  have yesWithin := yesEnd.trans (braceEnd.trans (closingEnd.trans conditionEnd))
  refine (blocks yes yesWithin).bind_within leaves.block fun _ word wordEnd => ?_
  refine AgreeAt.upcoming_bind (AgreeAt.ite (fun _ => ?_) fun _ => .pure _)
  refine AgreeAt.advance.bind_within takesFirst_advance.leavesEnd fun _ brace braceEnd => ?_
  refine (AgreeAt.expect _).bind_within (leavesEnd_expect _) fun _ no noEnd => ?_
  have noWithin := noEnd.trans (braceEnd.trans (wordEnd.trans yesWithin))
  exact (blocks no noWithin).bind fun _ _ _ _ => .pure _

theorem function (agree : Agreement limit first second) (leaves : Remainders first)
    (tokens : List Token) (bounded : 4 * tokens.length + 4 ≤ limit) :
    AgreeAt first.function second.function tokens := by
  refine (AgreeAt.expect _).bind_within (leavesEnd_expect _) fun _ names namesEnd => ?_
  have := namesEnd.length_le
  refine (agree.parameters names (by omega)).bind_within leaves.parameters
    fun _ brace braceEnd => ?_
  refine (AgreeAt.expect _).bind_within (leavesEnd_expect _) fun _ body bodyEnd => ?_
  have := (bodyEnd.trans (braceEnd.trans namesEnd)).length_le
  exact (agree.block body (by omega)).bind fun _ _ _ _ => .pure _

theorem operand_deeper (agree : Agreement limit first second) (leaves : Remainders first)
    (tokens : List Token) (bounded : 4 * tokens.length + 1 ≤ limit + 1) :
    AgreeAt first.deeper.operand second.deeper.operand tokens := by
  cases tokens with
  | nil => exact ⟨_, rfl, rfl⟩
  | cons token middle =>
    rw [List.length_cons] at bounded
    have expression : ∀ floor, AgreeAt (first.expression floor) (second.expression floor) middle :=
      fun floor => agree.expression floor middle (by omega)
    refine AgreeAt.advance.bind fun head noted rest found => ?_
    cases found
    change AgreeAt (first.operandAfter token) (second.operandAfter token) middle
    unfold Readings.operandAfter
    split
    · exact .pure _
    · split
      · exact .pure _
      · exact .reject _
    · exact .pure _
    · exact .pure _
    · exact (expression _).bind fun _ _ _ _ => .pure _
    · exact (expression _).bind fun _ _ _ _ => .pure _
    · exact (expression _).bind fun _ _ _ _ => (AgreeAt.expect _).bind fun _ _ _ _ => .pure _
    · exact agree.conditional leaves middle (by omega)
    · exact agree.function leaves middle (by omega)
    · exact .reject _

theorem expression_deeper (agree : Agreement limit first second) (leaves : Remainders first)
    (floor : Precedence) (tokens : List Token) (bounded : 4 * tokens.length + 2 ≤ limit + 1) :
    AgreeAt (first.deeper.expression floor) (second.deeper.expression floor) tokens := by
  refine (agree.operand tokens (by omega)).bind_within leaves.operand.leavesEnd
    fun left rest within => ?_
  have := within.length_le
  exact agree.extension floor left rest (by omega)

theorem extension_deeper (agree : Agreement limit first second) (leaves : Remainders first)
    (floor : Precedence) (left : Expression) (tokens : List Token)
    (bounded : 4 * tokens.length + 1 ≤ limit + 1) :
    AgreeAt (first.deeper.extension floor left) (second.deeper.extension floor left) tokens := by
  refine AgreeAt.upcoming_bind (AgreeAt.ite (fun binds => ?_) fun _ => .pure _)
  have present := length_pos_of_binding binds
  refine AgreeAt.advance.bind_tail takesFirst_advance fun _ middle within => ?_
  have shorter := length_le_of_suffix_tail within
  split
  · refine (agree.expression _ middle (by omega)).bind_within (leaves.expression _).leavesEnd
      fun right rest restWithin => ?_
    have := restWithin.length_le
    exact agree.extension floor _ rest (by omega)
  · refine (agree.arguments middle (by omega)).bind_within leaves.arguments
      fun given rest restWithin => ?_
    have := restWithin.length_le
    exact agree.extension floor _ rest (by omega)

theorem arguments_deeper (agree : Agreement limit first second) (tokens : List Token)
    (bounded : 4 * tokens.length + 4 ≤ limit + 1) :
    AgreeAt first.deeper.arguments second.deeper.arguments tokens :=
  AgreeAt.upcoming_bind (AgreeAt.ite (fun _ => AgreeAt.advance.bind fun _ _ _ _ => .pure _)
    fun _ => agree.expressions tokens (by omega))

theorem expressions_deeper (agree : Agreement limit first second) (leaves : Remainders first)
    (tokens : List Token) (bounded : 4 * tokens.length + 3 ≤ limit + 1) :
    AgreeAt first.deeper.expressions second.deeper.expressions tokens := by
  refine (agree.expression _ tokens (by omega)).bind_within (leaves.expression _).leavesEnd
    fun head middle within => ?_
  have fewer := within.length_le
  refine AgreeAt.upcoming_bind (AgreeAt.ite (fun comma => ?_) fun _ => ?_)
  · have present : 0 < middle.length := length_pos_of_tag (by rw [comma]; decide)
    refine AgreeAt.advance.bind_tail takesFirst_advance fun _ rest restWithin => ?_
    have := length_le_of_suffix_tail restWithin
    exact (agree.expressions rest (by omega)).bind fun _ _ _ _ => .pure _
  · exact (AgreeAt.expect _).bind fun _ _ _ _ => .pure _

theorem block_deeper (agree : Agreement limit first second) (leaves : Remainders first)
    (tokens : List Token) (bounded : 4 * tokens.length + 4 ≤ limit + 1) :
    AgreeAt first.deeper.block second.deeper.block tokens := by
  refine AgreeAt.upcoming_bind (AgreeAt.ite (fun _ => ?_) fun _ =>
    AgreeAt.ite (fun _ => .pure _) fun unended => ?_)
  · exact AgreeAt.advance.bind fun _ _ _ _ => .pure _
  · have present := length_pos_of_tag unended
    refine (agree.statement tokens (by omega)).attempt.bind_tail leaves.statement.attempt
      fun found rest within => ?_
    have := length_le_of_suffix_tail within
    exact (agree.block rest (by omega)).bind fun _ _ _ _ => .pure _

theorem binding (agree : Agreement limit first second) (tokens : List Token)
    (bounded : 4 * tokens.length + 2 ≤ limit) :
    AgreeAt first.binding second.binding tokens := by
  refine (AgreeAt.expect _).bind_within (leavesEnd_expect _) fun _ assign assignEnd => ?_
  refine (AgreeAt.expect _).bind_within (leavesEnd_expect _) fun _ value valueEnd => ?_
  have := (valueEnd.trans assignEnd).length_le
  refine (agree.expression _ value (by omega)).bind fun _ _ _ _ => ?_
  exact (AgreeAt.skip _).bind fun _ _ _ _ => .pure _

theorem returning (agree : Agreement limit first second) (tokens : List Token)
    (bounded : 4 * tokens.length + 2 ≤ limit) :
    AgreeAt first.returning second.returning tokens := by
  refine AgreeAt.upcoming_bind (AgreeAt.ite (fun _ => ?_) fun _ => ?_)
  · exact (AgreeAt.skip _).bind fun _ _ _ _ => .pure _
  · exact (agree.expression _ tokens bounded).bind fun _ _ _ _ =>
      (AgreeAt.skip _).bind fun _ _ _ _ => .pure _

theorem statement_deeper (agree : Agreement limit first second) (tokens : List Token)
    (bounded : 4 * tokens.length + 3 ≤ limit + 1) :
    AgreeAt first.deeper.statement second.deeper.statement tokens := by
  refine AgreeAt.upcoming_bind ?_
  split
  · refine AgreeAt.advance.bind_within takesFirst_advance.leavesEnd fun _ rest within => ?_
    have := within.length_le
    exact agree.binding rest (by omega)
  · refine AgreeAt.advance.bind_within takesFirst_advance.leavesEnd fun _ rest within => ?_
    have := within.length_le
    exact agree.returning rest (by omega)
  · exact (agree.expression _ tokens (by omega)).bind fun _ _ _ _ =>
      (AgreeAt.skip _).bind fun _ _ _ _ => .pure _

theorem statements_deeper (agree : Agreement limit first second) (leaves : Remainders first)
    (tokens : List Token) (bounded : 4 * tokens.length + 4 ≤ limit + 1) :
    AgreeAt first.deeper.statements second.deeper.statements tokens := by
  refine AgreeAt.upcoming_bind (AgreeAt.ite (fun _ => .pure _) fun unended => ?_)
  have present := length_pos_of_tag unended
  refine (agree.statement tokens (by omega)).attempt.bind_tail leaves.statement.attempt
    fun found rest within => ?_
  have := length_le_of_suffix_tail within
  exact (agree.statements rest (by omega)).bind fun _ _ _ _ => .pure _

/-- If the inner readings agree then so do those that call them, at one token more for every
four calls. -/
theorem deeper (agree : Agreement limit first second) (leaves : Remainders first) :
    Agreement (limit + 1) first.deeper second.deeper where
  names := agree.names_deeper
  operand := agree.operand_deeper leaves
  expression := agree.expression_deeper leaves
  extension := agree.extension_deeper leaves
  arguments := agree.arguments_deeper
  expressions := agree.expressions_deeper leaves
  block := agree.block_deeper leaves
  statement := agree.statement_deeper
  statements := agree.statements_deeper leaves

end Agreement

theorem agreement_atDepth (depth other : Nat) :
    Agreement (min depth other) (.atDepth depth) (.atDepth other) := by
  induction depth generalizing other with
  | zero => rw [Nat.zero_min]; exact .zero
  | succ depth inductionHypothesis =>
    cases other with
    | zero => exact .zero
    | succ other =>
      rw [Nat.succ_min_succ]
      exact (inductionHypothesis other).deeper (remainders_atDepth depth)

/-! ### Readings without a bound -/

/-- The readings at a depth that suffices for some tokens. -/
def Readings.forTokens (tokens : List Token) : Readings :=
  atDepth (sufficientDepth tokens.length)

/-- The readings at a depth that suffices for the tokens they are given. -/
def Readings.unbounded : Readings where
  names tokens := (forTokens tokens).names tokens
  operand tokens := (forTokens tokens).operand tokens
  expression floor tokens := (forTokens tokens).expression floor tokens
  extension floor left tokens := (forTokens tokens).extension floor left tokens
  arguments tokens := (forTokens tokens).arguments tokens
  expressions tokens := (forTokens tokens).expressions tokens
  block tokens := (forTokens tokens).block tokens
  statement tokens := (forTokens tokens).statement tokens
  statements tokens := (forTokens tokens).statements tokens

theorem remainders_forTokens (tokens : List Token) : Remainders (.forTokens tokens) :=
  remainders_atDepth _

theorem agreement_forTokens (depth : Nat) (tokens : List Token) :
    Agreement (min depth (4 * tokens.length + 4)) (.atDepth depth) (.forTokens tokens) :=
  agreement_atDepth depth _

theorem remainders_unbounded : Remainders .unbounded where
  names tokens := (remainders_forTokens tokens).names tokens
  operand tokens := (remainders_forTokens tokens).operand tokens
  expression floor tokens := (remainders_forTokens tokens).expression floor tokens
  extension floor left tokens := (remainders_forTokens tokens).extension floor left tokens
  arguments tokens := (remainders_forTokens tokens).arguments tokens
  expressions tokens := (remainders_forTokens tokens).expressions tokens
  block tokens := (remainders_forTokens tokens).block tokens
  statement tokens := (remainders_forTokens tokens).statement tokens
  statements tokens := (remainders_forTokens tokens).statements tokens

/-- A bound that is high enough for the tokens makes no difference. -/
theorem agreement_unbounded (depth : Nat) : Agreement depth (.atDepth depth) .unbounded where
  names tokens _ :=
    ((agreement_forTokens depth tokens).names tokens (by omega)).congr_right rfl
  operand tokens _ :=
    ((agreement_forTokens depth tokens).operand tokens (by omega)).congr_right rfl
  expression floor tokens _ :=
    ((agreement_forTokens depth tokens).expression floor tokens (by omega)).congr_right rfl
  extension floor left tokens _ :=
    ((agreement_forTokens depth tokens).extension floor left tokens (by omega)).congr_right rfl
  arguments tokens _ :=
    ((agreement_forTokens depth tokens).arguments tokens (by omega)).congr_right rfl
  expressions tokens _ :=
    ((agreement_forTokens depth tokens).expressions tokens (by omega)).congr_right rfl
  block tokens _ :=
    ((agreement_forTokens depth tokens).block tokens (by omega)).congr_right rfl
  statement tokens _ :=
    ((agreement_forTokens depth tokens).statement tokens (by omega)).congr_right rfl
  statements tokens _ :=
    ((agreement_forTokens depth tokens).statements tokens (by omega)).congr_right rfl

attribute [ext] Readings

/-- Readings that agree with the same others at all tokens are the same. -/
theorem eq_of_agreement {common : Nat → Readings} {first second : Readings}
    (left : ∀ limit, Agreement limit (common limit) first)
    (right : ∀ limit, Agreement limit (common limit) second) : first = second := by
  have same {Result : Type} {shared one other : Reading Result} {tokens : List Token}
      (agree : AgreeAt shared one tokens) (agree' : AgreeAt shared other tokens) :
      one tokens = other tokens := agree.eq.symm.trans agree'.eq
  ext1
  · funext tokens
    exact same ((left _).names tokens le_rfl) ((right _).names tokens le_rfl)
  · funext tokens
    exact same ((left _).operand tokens le_rfl) ((right _).operand tokens le_rfl)
  · funext floor tokens
    exact same ((left _).expression floor tokens le_rfl) ((right _).expression floor tokens le_rfl)
  · funext floor start tokens
    exact same ((left _).extension floor start tokens le_rfl)
      ((right _).extension floor start tokens le_rfl)
  · funext tokens
    exact same ((left _).arguments tokens le_rfl) ((right _).arguments tokens le_rfl)
  · funext tokens
    exact same ((left _).expressions tokens le_rfl) ((right _).expressions tokens le_rfl)
  · funext tokens
    exact same ((left _).block tokens le_rfl) ((right _).block tokens le_rfl)
  · funext tokens
    exact same ((left _).statement tokens le_rfl) ((right _).statement tokens le_rfl)
  · funext tokens
    exact same ((left _).statements tokens le_rfl) ((right _).statements tokens le_rfl)

/-- The readings without a bound are what they do with themselves. -/
theorem unbounded_eq_deeper : Readings.unbounded = Readings.unbounded.deeper := by
  refine eq_of_agreement agreement_unbounded fun limit => ?_
  cases limit with
  | zero => exact .zero
  | succ limit => exact (agreement_unbounded limit).deeper (remainders_atDepth limit)

end Monkey
