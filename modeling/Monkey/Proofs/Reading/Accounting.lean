/-
This file accounts for the attempts to read a statement. Every reading of a piece
is recounted in the same way by all watchers, with the statements in its result
among those that came of the attempts. This passes from the inner readings to those
that call them, so it holds at every depth.

A source has no more attempts than tokens, since each starts at another token. Each
leaves a statement or a diagnostic, which bounds the two together.
-/

import Monkey.Proofs.Grammar.Parsing
import Monkey.Proofs.Reading.Recounting

namespace Monkey

open Reading

/-- The readings of the pieces are recounted under watchers. An operand takes its first token
before anything can be attempted, and so does what starts with one. -/
structure Accounted (readings : Watcher → Readings) : Prop where
  names : ∀ tokens, Recounts (fun _ _ => True) tokens (fun watcher => (readings watcher).names)
    tokens
  operand : ∀ tokens, Recounts (fun tree count => tree.statementCount ≤ count) tokens.tail
    (fun watcher => (readings watcher).operand) tokens
  expression : ∀ floor tokens, Recounts (fun tree count => tree.statementCount ≤ count) tokens.tail
    (fun watcher => (readings watcher).expression floor) tokens
  extension : ∀ floor left tokens,
    Recounts (fun tree count => tree.statementCount ≤ left.statementCount + count) tokens
      (fun watcher => (readings watcher).extension floor left) tokens
  arguments : ∀ tokens, Recounts (fun given count => countStatementsAmong given ≤ count) tokens
    (fun watcher => (readings watcher).arguments) tokens
  expressions : ∀ tokens, Recounts (fun given count => countStatementsAmong given ≤ count) tokens
    (fun watcher => (readings watcher).expressions) tokens
  block : ∀ tokens, Gathers (fun watcher => (readings watcher).block) tokens
  statement : ∀ tokens, Recounts (fun statement count => statement.statementCount ≤ count + 1)
    tokens.tail (fun watcher => (readings watcher).statement) tokens
  statements : ∀ tokens, Gathers (fun watcher => (readings watcher).statements) tokens
  watched : ∃ depth, ∀ watcher, readings watcher = .watchedAtDepth watcher depth

namespace Accounted

theorem mute : Accounted fun _ => .mute where
  names _ := .exhausted List.suffix_rfl
  operand _ := .exhausted (List.tail_suffix _)
  expression _ _ := .exhausted (List.tail_suffix _)
  extension _ _ _ := .exhausted List.suffix_rfl
  arguments _ := .exhausted List.suffix_rfl
  expressions _ := .exhausted List.suffix_rfl
  block _ _ := .exhausted fun _ => rfl
  statement _ := .exhausted (List.tail_suffix _)
  statements _ _ := .exhausted fun _ => rfl
  watched := ⟨0, fun _ => rfl⟩

variable {readings : Watcher → Readings} (accounted : Accounted readings)
include accounted

theorem parameters (tokens : List Token) :
    Recounts (fun _ _ => True) tokens (fun watcher => (readings watcher).parameters) tokens :=
  .upcoming_bind (.ite (fun _ => (Recounts.advance_then (.pure trivial)).widen)
    fun _ => accounted.names tokens)

theorem conditional (tokens : List Token) :
    Recounts (fun tree count => tree.statementCount ≤ count) tokens
      (fun watcher => (readings watcher).conditional) tokens := by
  refine (Recounts.expect _).bind fun _ _ rest _ => ?_
  refine (accounted.expression _ rest).widen.bind fun condition _ rest boundedCondition => ?_
  refine (Recounts.expect _).bind fun _ _ rest _ => (Recounts.expect _).bind fun _ _ rest _ => ?_
  refine (accounted.block rest).recounts.bind fun consequence _ rest boundedConsequence => ?_
  refine .upcoming_bind (.ite (fun _ => (Recounts.advance_then ?_).widen) fun _ => .pure ?_)
  · refine (Recounts.expect _).bind fun _ _ rest _ => ?_
    refine (accounted.block rest).recounts.bind fun alternative _ rest boundedAlternative => ?_
    refine .pure ?_
    simp only [Expression.statementCount]
    omega
  · simp only [Expression.statementCount]
    omega

theorem function (tokens : List Token) :
    Recounts (fun tree count => tree.statementCount ≤ count) tokens
      (fun watcher => (readings watcher).function) tokens := by
  refine (Recounts.expect _).bind fun _ _ rest _ => ?_
  refine (accounted.parameters rest).bind fun names _ rest _ => ?_
  refine (Recounts.expect _).bind fun _ _ rest _ => ?_
  refine (accounted.block rest).recounts.bind fun body _ rest bounded => .pure ?_
  simp only [Expression.statementCount]
  omega

/-- Either no operand starts with a token, or what follows it is recounted. -/
theorem operandAfter (token : Token) :
    (∃ reported : Diagnostic, reported.isUnexpected = false ∧ reported.Names token ∧
      ∀ inner : Readings, inner.operandAfter token = reject reported) ∨
    ∀ tokens, Recounts (fun tree count => tree.statementCount ≤ count) tokens
      (fun watcher => (readings watcher).operandAfter token) tokens := by
  have signed (operator : PrefixOperator) (tokens : List Token) :
      Recounts (fun (tree : Expression) count => tree.statementCount ≤ count) tokens
        (fun watcher => do return .prefixed operator (← (readings watcher).expression .sign))
        tokens := by
    refine (accounted.expression _ tokens).widen.bind fun operand _ rest bounded => .pure ?_
    simpa only [Expression.statementCount, Nat.add_zero] using bounded
  obtain ⟨tag, text⟩ := token
  cases tag with
  | identifier => exact .inr fun tokens => .pure le_rfl
  | integer =>
    cases read : Numeral.read? text with
    | none =>
      refine .inl ⟨.invalidInteger text, rfl, ⟨rfl, rfl⟩, fun inner => ?_⟩
      simp only [Readings.operandAfter, read]
    | some value =>
      refine .inr fun tokens => ?_
      simp only [Readings.operandAfter, read]
      exact .pure le_rfl
  | truth => exact .inr fun tokens => .pure le_rfl
  | falsity => exact .inr fun tokens => .pure le_rfl
  | bang => exact .inr (signed .bang)
  | minus => exact .inr (signed .minus)
  | leftParen =>
    refine .inr fun tokens => ?_
    refine (accounted.expression _ tokens).widen.bind fun tree _ rest bounded => ?_
    exact (Recounts.expect _).bind fun _ _ rest _ => .pure (bounded.trans (by omega))
  | condition => exact .inr accounted.conditional
  | function => exact .inr accounted.function
  | _ => exact .inl ⟨.noOperand _, rfl, rfl, fun _ => rfl⟩

/-- Where no operand starts, the first token is what is wrong, and it was taken. -/
theorem operand_deeper (tokens : List Token) :
    Recounts (fun tree count => tree.statementCount ≤ count) tokens.tail
      (fun watcher => (readings watcher).deeper.operand) tokens := by
  obtain ⟨reported, noOperand, named, rejects⟩ | follows :=
    accounted.operandAfter (Token.first tokens)
  · refine ⟨List.tail_suffix _, fun _ => ?_⟩
    refine .rejected .nil ⟨reported, tokens⟩ .nil .nil named ?_ fun watcher => ?_
    · simp only [noOperand, Bool.false_eq_true, if_false, List.suffix_rfl]
    · refine (advance_bind _).trans ?_
      rw [rejects, Finding.resume]
      simp only [noOperand]
      rfl
  · exact .advance_bind (follows tokens.tail)

theorem extension_deeper (floor : Precedence) (left : Expression) (tokens : List Token) :
    Recounts (fun tree count => tree.statementCount ≤ left.statementCount + count) tokens
      (fun watcher => (readings watcher).deeper.extension floor left) tokens := by
  refine .upcoming_bind (.ite (fun _ => (Recounts.advance_then ?_).widen) fun _ => .pure le_rfl)
  cases (Token.first tokens).tag.infixOperator? with
  | some operator =>
    refine (accounted.expression _ _).widen.bind fun right _ rest bounded => ?_
    refine (accounted.extension floor (.infixed left operator right) rest).imp ?_
    intro tree count longer
    simp only [Expression.statementCount] at longer
    omega
  | none =>
    refine (accounted.arguments _).bind fun given _ rest bounded => ?_
    refine (accounted.extension floor (.call left given) rest).imp ?_
    intro tree count longer
    simp only [Expression.statementCount] at longer
    omega

theorem binding (tokens : List Token) :
    Recounts (fun statement count => statement.statementCount ≤ count + 1) tokens
      (fun watcher => (readings watcher).binding) tokens := by
  refine (Recounts.expect _).bind fun name _ rest _ => (Recounts.expect _).bind fun _ _ rest _ => ?_
  refine (accounted.expression _ rest).widen.bind fun value _ rest bounded => ?_
  refine (Recounts.skip _).bind fun _ _ rest _ => .pure ?_
  simp only [Statement.statementCount]
  omega

theorem returning (tokens : List Token) :
    Recounts (fun statement count => statement.statementCount ≤ count + 1) tokens
      (fun watcher => (readings watcher).returning) tokens := by
  refine .upcoming_bind (.ite (fun _ => ?_) fun _ => ?_)
  · refine (Recounts.skip _).bind fun _ _ rest _ => .pure ?_
    simp only [Statement.statementCount]
    omega
  · refine (accounted.expression _ tokens).widen.bind fun value _ rest bounded => ?_
    refine (Recounts.skip _).bind fun _ _ rest _ => .pure ?_
    simp only [Statement.statementCount]
    omega

theorem statement_deeper (tokens : List Token) :
    Recounts (fun statement count => statement.statementCount ≤ count + 1) tokens.tail
      (fun watcher => (readings watcher).deeper.statement) tokens := by
  refine .upcoming_bind ?_
  split
  · exact .advance_then (accounted.binding _)
  · exact .advance_then (accounted.returning _)
  · refine (accounted.expression _ tokens).bind fun value _ rest bounded => ?_
    refine (Recounts.skip _).bind fun _ _ rest _ => .pure ?_
    simp only [Statement.statementCount]
    omega

theorem attempted {tokens : List Token} {others : Watcher → Reading (List Statement)}
    (more : (Token.first tokens).tag ≠ .endOfInput) (next : ∀ rest, Gathers others rest) :
    Gathers (fun watcher => do
      let found ← attempt ((readings watcher).watched watcher).statement
      return found.toList ++ (← others watcher)) tokens := by
  obtain ⟨depth, same⟩ := accounted.watched
  exact .attempted more (fun watcher => congrArg Readings.statement (same watcher))
    (accounted.statement tokens) next

theorem deeper : Accounted fun watcher => ((readings watcher).watched watcher).deeper where
  names tokens := by
    refine (Recounts.expect _).bind fun name _ rest _ => ?_
    refine .upcoming_bind (.ite (fun _ => (Recounts.advance_then ?_).widen) fun _ => ?_)
    · exact (accounted.names _).bind fun _ _ rest _ => .pure trivial
    · exact (Recounts.expect _).bind fun _ _ rest _ => .pure trivial
  operand tokens := accounted.operand_deeper tokens
  expression floor tokens := by
    refine (accounted.operand tokens).bind fun left _ rest bounded => ?_
    refine (accounted.extension floor left rest).imp fun tree count longer => ?_
    omega
  extension floor left tokens := accounted.extension_deeper floor left tokens
  arguments tokens := .upcoming_bind (.ite
    (fun _ => (Recounts.advance_then (.pure (by rw [countStatementsAmong]))).widen)
    fun _ => accounted.expressions tokens)
  expressions tokens := by
    refine (accounted.expression _ tokens).widen.bind fun first _ rest bounded => ?_
    refine .upcoming_bind (.ite (fun _ => (Recounts.advance_then ?_).widen) fun _ => ?_)
    · refine (accounted.expressions _).bind fun given _ rest boundedRest => .pure ?_
      simp only [countStatementsAmong]
      omega
    · refine (Recounts.expect _).bind fun _ _ rest _ => .pure ?_
      simp only [countStatementsAmong]
      omega
  block tokens := by
    refine .upcoming_bind (.ite (fun _ => .closed) fun _ => .ite .ended fun more => ?_)
    exact accounted.attempted more accounted.block
  statement tokens := accounted.statement_deeper tokens
  statements tokens := .upcoming_bind (.ite .ended fun more =>
    accounted.attempted more accounted.statements)
  watched := by
    obtain ⟨depth, same⟩ := accounted.watched
    exact ⟨depth + 1, fun watcher => by rw [same, Readings.watchedAtDepth]⟩

end Accounted

theorem accounted_atDepth (depth : Nat) :
    Accounted fun watcher => .watchedAtDepth watcher depth := by
  induction depth with
  | zero => exact .mute
  | succ depth inductionHypothesis => exact inductionHypothesis.deeper

/-! ### Sources -/

/-- Reading statements only stops where the input ends. -/
theorem statements_ended {depth : Nat} {tokens rest : List Token} {statements : List Statement}
    {noted : List Diagnostic}
    (accepted :
      (Readings.atDepth depth).statements tokens = some (.accepted statements noted rest)) :
    (Token.first rest).tag = .endOfInput := by
  induction depth generalizing tokens statements noted with
  | zero => cases accepted
  | succ depth inductionHypothesis =>
    simp only [Readings.atDepth, Readings.deeper] at accepted
    rw [upcoming_bind] at accepted
    split at accepted
    · rename_i ended
      cases accepted
      exact ended
    · obtain ⟨_, _, _, _, same⟩ | ⟨_, _, _, final, _, more, same⟩ := bind_eq_some accepted
      · cases same
      · obtain ⟨_, _, _, _, rejected⟩ | ⟨_, _, _, last, others, made, equal⟩ := bind_eq_some more
        · rw [rejected] at same
          cases same
        · cases made
          rw [equal] at same
          cases same
          exact inductionHypothesis others

theorem endless_scan (source : String) : Endless (Token.scan source) :=
  fun _ member => Token.tag_ne_endOfInput member

/-- All watchers recount a source, to its end, at every depth that suffices. -/
theorem exists_attempts (source : String) {depth : Nat}
    (enough : Readings.sufficientDepth (Token.scan source).length ≤ depth) :
    ∃ attempts : Attempts, attempts.Spread (Token.scan source) [] ∧
      countStatements (Program.parse source).program.statements ≤ attempts.kept ∧
      ∀ watcher, (Readings.watchedAtDepth watcher depth).statements (Token.scan source) =
        some (.accepted (Program.parse source).program.statements (attempts.noted watcher) []) := by
  have endless := endless_scan source
  obtain ⟨statements, noted, rest, found⟩ := statements_accepted (Token.scan source)
  have parsed : Program.parse source = ⟨⟨statements⟩, noted⟩ := ofTokens_eq _ found
  rw [← ((agreement_unbounded depth).statements _ enough).eq, ← Readings.watchedAtDepth_silent]
    at found
  cases (accounted_atDepth depth).statements _ endless with
  | exhausted nothing => cases found.symm.trans (nothing .silent)
  | accepted attempts result spread past taken bounded recounted =>
    cases found.symm.trans (recounted .silent)
    rw [Readings.watchedAtDepth_silent] at found
    obtain rfl : rest = [] := (endless.suffix (taken.trans (List.tail_suffix _))).eq_nil
      (statements_ended found)
    rw [parsed]
    exact ⟨attempts, spread, bounded, recounted⟩

/-- The findings of the attempts are the diagnostics of the source. -/
theorem diagnostics_eq_of_recounted {source : String} {depth : Nat} {attempts : Attempts}
    {statements : List Statement}
    (enough : Readings.sufficientDepth (Token.scan source).length ≤ depth)
    (recounted : ∀ watcher, (Readings.watchedAtDepth watcher depth).statements (Token.scan source) =
      some (.accepted statements (attempts.noted watcher) [])) :
    (Program.parse source).diagnostics = attempts.findings.map Finding.diagnostic := by
  have silent := recounted .silent
  rw [Readings.watchedAtDepth_silent, ((agreement_unbounded depth).statements _ enough).eq]
    at silent
  unfold Program.parse
  rw [ofTokens_eq _ silent, Attempts.noted_silent]

/-- Parsing always comes to an end, and every attempt to read a statement is accounted for. At every
depth that suffices the whole source is read, and whoever watches sees the same attempts. Each
starts at a token of its own. One that leaves no statement notes one diagnostic besides those that
are noted in its blocks, and one that leaves a statement notes nothing more. So statements, at all
levels, and diagnostics together are no more than the tokens. -/
theorem attempts_are_accounted_for (source : String) :
    (∀ depth, Readings.sufficientDepth (Token.scan source).length ≤ depth →
      (Readings.atDepth depth).statements (Token.scan source) = some (.accepted
        (Program.parse source).program.statements (Program.parse source).diagnostics []) ∧
      ∃ attempts : Attempts,
        (∀ watcher, (Readings.watchedAtDepth watcher depth).statements (Token.scan source) =
          some (.accepted (Program.parse source).program.statements (attempts.noted watcher) [])) ∧
        attempts.Each Attempt.Made ∧
        (∀ attempt ∈ attempts.all, (attempt.found.isNone → attempt.own.length = 1) ∧
          (attempt.found.isSome → attempt.own = [])) ∧
        (∀ attempt ∈ attempts.all, attempt.start ≠ [] ∧ attempt.start <:+ Token.scan source) ∧
        (attempts.all.map Attempt.start).Nodup) ∧
    countStatements (Program.parse source).program.statements +
      (Program.parse source).diagnostics.length ≤ (Token.scan source).length := by
  refine ⟨fun depth enough => ?_, ?_⟩
  · obtain ⟨attempts, spread, _, recounted⟩ := exists_attempts source enough
    refine ⟨?_, attempts, recounted, spread.made, fun attempt member => ?_,
      fun attempt member => ?_, spread.nodup⟩
    · rw [diagnostics_eq_of_recounted enough recounted, ← Attempts.noted_silent,
        ← Readings.watchedAtDepth_silent]
      exact recounted .silent
    · obtain ⟨keeps, finds⟩ := spread.settled attempt member
      exact ⟨finds, keeps⟩
    · obtain ⟨present, within, _⟩ := spread.starts attempt member
      exact ⟨present, within⟩
  · obtain ⟨attempts, spread, bounded, recounted⟩ := exists_attempts source le_rfl
    rw [diagnostics_eq_of_recounted le_rfl recounted, List.length_map]
    have counted := attempts.kept_add_findings spread.settled
    have fewer := spread.length_le
    omega

-- The bound is met: here every token is an attempt.
example :
    let parsed := Program.parse "; x ) y"
    (countStatements parsed.program.statements, parsed.diagnostics.length,
      (Token.scan "; x ) y").length) = (2, 2, 4) := by
  decide +kernel

end Monkey
