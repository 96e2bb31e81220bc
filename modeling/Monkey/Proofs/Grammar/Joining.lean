/-
This file is about programs one after the other in a text. If the first has no
diagnostics, ends in a semicolon and closes every block that it opens, then
reading the second starts where nothing of the first is pending. So whatever the
second is, also if it is malformed, its statements come after those of the first
and its diagnostics are all there are.

What a statement with a semicolon at its end is read as depends on nothing after
it. The statements before it are each followed by a statement, as they were.
-/

import Monkey.Proofs.Grammar.Completion
import Monkey.Proofs.Grammar.Nesting
import Monkey.Proofs.Grammar.Parsing

namespace Monkey

open Reading
open Readings (unbounded)
open Token (tally EndsIn scan)

namespace Grammar

/-! ### The last statement -/

/-- What starts with some tokens only takes one. -/
theorem Derives.ne_nil {construct : Construct} {tokens rest : List Token} {tags : List Tag}
    (derivation : Derives construct tokens rest) (known : construct.openingTags = some tags)
    (unended : .endOfInput ∉ tags) : tokens ≠ [] := by
  rintro rfl
  exact derivation.first_ne known unended rfl

/-- A derivation starts as it does whatever comes after it. -/
theorem Derives.opens_append {construct : Construct} {tokens rest : List Token} {tags : List Tag}
    (derivation : Derives construct tokens rest) (known : construct.openingTags = some tags)
    (unended : .endOfInput ∉ tags) (more : List Token) :
    (Token.first (tokens ++ more)).tag ∈ tags := by
  obtain ⟨token, others, rfl⟩ := List.exists_cons_of_ne_nil (derivation.ne_nil known unended)
  exact derivation.opens known

/-- Tokens with as many closing braces as opening ones, and a semicolon at their end. -/
structure Complete (tokens : List Token) : Prop where
  semicolon : EndsIn .semicolon tokens
  braces : tally .leftBrace tokens = tally .rightBrace tokens

theorem Complete.of_cons {token : Token} {tokens : List Token}
    (complete : Complete (token :: tokens)) (plain : token.tag ∉ brackets) (some : tokens ≠ []) :
    Complete tokens where
  semicolon := (Token.endsIn_cons token some).mp complete.semicolon
  braces := by
    simp only [brackets, List.mem_cons, List.not_mem_nil, or_false, not_or] at plain
    simpa [Token.tally_cons, plain] using complete.braces

/-- The expression at the end of a complete statement is read as it is there, whatever comes after
the semicolon. -/
theorem accepts_complete_ending {tree : Expression} (whole : Expression → Statement)
    {tokens after : List Token} (derivation : Derives (.expression tree) tokens after)
    (ends : Terminated after []) (complete : Complete tokens) (rest : List Token) :
    Accepts (do
      let value ← unbounded.expression .lowest
      skip .semicolon
      return whole value) (tokens ++ rest) (whole tree) rest := by
  cases ends with
  | @semicolon token _ tagged =>
    obtain ⟨taken, rfl, movable⟩ := derivation.moves
    have moved := movable.moved (token :: rest) rfl
    rw [List.append_assoc, List.singleton_append]
    exact accepts_bind.mpr ⟨tree, _,
      accepts_expression_before (read_of_derives moved) tagged (by decide) (by decide),
      accepts_bind.mpr ⟨(), _, skip_of_tag tagged, accepts_pure.mpr ⟨rfl, rfl⟩⟩⟩
  | complete _ =>
    -- The semicolon would be one inside of a block that is left open.
    obtain ⟨taken, rfl, held⟩ := derivation.bracketed
    rw [List.append_nil] at complete
    exact absurd (held.semicolon complete.semicolon) (Nat.not_lt.mpr complete.braces.le)

/-- A complete last statement is read as it is, whatever comes after it. -/
theorem accepts_complete {tree : Statement} {tokens : List Token}
    (derivation : Derives (.statement tree) tokens []) (complete : Complete tokens)
    (rest : List Token) : unbounded.statement.Accepts (tokens ++ rest) tree rest := by
  cases derivation with
  | @binding word name sign value middle _ _ tagged named assigns inner ends =>
    have some := inner.ne_nil rfl (by decide)
    have within : Complete middle :=
      ((complete.of_cons (by rw [tagged]; decide) (List.cons_ne_nil _ _)).of_cons
        (by rw [named]; decide) (List.cons_ne_nil _ _)).of_cons (by rw [assigns]; decide) some
    exact accepts_binding tagged named assigns
      (accepts_complete_ending (.binding name.text) inner ends within rest)
  | bareReturn tagged ends => exact accepts_bareReturn tagged ends
  | lastReturn tagged _ =>
    have last := Token.endsIn_singleton.mp complete.semicolon
    rw [tagged] at last
    cases last
  | @returning word value middle _ _ tagged inner ends =>
    have within := complete.of_cons (by rw [tagged]; decide) (inner.ne_nil rfl (by decide))
    exact accepts_returning tagged (inner.opens_append rfl (by decide) rest)
      (accepts_complete_ending (fun value => .returning (some value)) inner ends within rest)
  | expression inner ends =>
    exact accepts_statement_of_expression (inner.opens_append rfl (by decide) rest)
      (accepts_complete_ending .expression inner ends complete rest)

/-! ### Statements before others -/

/-- Reading statements goes on after one that is accepted. -/
theorem statements_cons {tree : Statement} {trees : List Statement} {noted : List Diagnostic}
    {tokens middle rest : List Token} (starts : (Token.first tokens).tag ≠ .endOfInput)
    (accepted : unbounded.statement.Accepts tokens tree middle)
    (others : unbounded.statements middle = some (.accepted trees noted rest)) :
    unbounded.statements tokens = some (.accepted (tree :: trees) noted rest) := by
  have attempted : (attempt unbounded.statement).Accepts tokens (some tree) middle :=
    accepts_attempt.mpr ⟨tree, rfl, accepted⟩
  rw [unbounded_eq_deeper]
  simp only [Readings.deeper]
  rw [upcoming_bind, if_neg starts, bind_of_accepts attempted]
  change andThen unbounded.statements _ middle = _
  simp [andThen, others, Outcome.after, pure, accept]

/-- What is left of complete tokens after nested ones is complete. -/
theorem Complete.of_append {first second : List Token} (complete : Complete (first ++ second))
    (one : Nested first) (other : Nested second) (some : second ≠ []) : Complete second where
  semicolon := (Token.endsIn_append some).mp complete.semicolon
  braces := by
    have whole := complete.braces
    have := one.braces
    have := other.braces
    rw [Token.tally_append, Token.tally_append] at whole
    omega

/-- A statement of complete ones is read as it is, whatever comes after all of them. -/
theorem accepts_first {tree : Statement} {trees : List Statement} {tokens middle : List Token}
    (first : Derives (.statement tree) tokens middle)
    (others : Derives (.statements trees) middle []) (complete : Complete tokens)
    (rest : List Token) :
    unbounded.statement.Accepts (tokens ++ rest) tree (middle ++ rest) := by
  obtain ⟨taken, rfl, movable⟩ := first.moves
  cases others with
  | empty => exact accepts_complete first complete rest
  | statements second _ =>
    -- A statement follows, so neither a semicolon nor an `else` does.
    have follows : (Token.first (middle ++ rest)).tag = (Token.first middle).tag := by
      obtain ⟨token, after, rfl⟩ := List.exists_cons_of_ne_nil (second.ne_nil rfl (by decide))
      rfl
    rw [List.append_assoc]
    refine read_of_derives (movable.moved _ follows) ?_ ?_ <;> rw [follows] <;>
      exact second.first_ne rfl (by decide)

/-- Statements that are complete are read before whatever else there is to read. -/
theorem statements_append {trees : List Statement} {tokens : List Token}
    (derivation : Derives (.statements trees) tokens []) (complete : Complete tokens)
    {rest after : List Token} {others : List Statement} {noted : List Diagnostic}
    (found : unbounded.statements rest = some (.accepted others noted after)) :
    unbounded.statements (tokens ++ rest) = some (.accepted (trees ++ others) noted after) := by
  induction trees generalizing tokens with
  | nil =>
    cases derivation
    cases complete.semicolon
  | cons tree trees inductionHypothesis =>
    cases derivation with
    | @statements _ _ _ middle _ first more =>
      have accepted := accepts_first first more complete rest
      have starts : (Token.first (tokens ++ rest)).tag ≠ .endOfInput := by
        intro ended
        have opens := first.opens_append rfl (by decide) rest
        rw [ended] at opens
        exact absurd opens (by decide)
      cases trees with
      | nil =>
        cases more
        exact statements_cons starts accepted found
      | cons next trees =>
        have some : middle ≠ [] := by
          cases more with
          | statements second _ => exact second.ne_nil rfl (by decide)
        obtain ⟨taken, rfl, one⟩ := first.bracketed
        obtain ⟨other, same, nested⟩ := more.bracketed
        rw [List.append_nil] at same
        have within := complete.of_append one (same ▸ nested) some
        exact statements_cons starts accepted (inductionHypothesis more within)

end Grammar

/-! ### Programs one after the other -/

/-- After complete tokens without a diagnostic, the others are parsed as they are alone. -/
theorem ofTokens_append {first second : List Token} {program : Program}
    (endless : ∀ token ∈ first, token.tag ≠ .endOfInput)
    (clean : Program.ofTokens first = ⟨program, []⟩) (complete : Grammar.Complete first) :
    Program.ofTokens (first ++ second) =
      ⟨⟨program.statements ++ (Program.ofTokens second).program.statements⟩,
        (Program.ofTokens second).diagnostics⟩ := by
  obtain ⟨left, accepted⟩ := (ofTokens_eq_iff first program).mp clean
  obtain ⟨others, noted, after, found⟩ := statements_accepted second
  have derivation := Grammar.derives_of_accepts endless accepted
  rw [ofTokens_eq _ (Grammar.statements_append derivation complete found), ofTokens_eq _ found]

/-- The tokens of a source without diagnostics give its program and no diagnostic. -/
theorem ofTokens_of_clean {source : String} (clean : (Program.parse source).diagnostics = []) :
    Program.ofTokens (scan source) = ⟨(Program.parse source).program, []⟩ := by
  rw [← clean]
  rfl

/-- A program without diagnostics that ends in a semicolon and closes its blocks, and then a blank
and any other program: the statements are those of the two, and the diagnostics are those of the
second. -/
theorem parsing_joins {first second : String} {separator : UInt8}
    (clean : (Program.parse first).diagnostics = [])
    (ends : EndsIn .semicolon (scan first))
    (closed : tally .leftBrace (scan first) = tally .rightBrace (scan first))
    (blank : Token.isBlank separator) :
    Program.parse (first ++ Token.spelling [separator] ++ second) =
      ⟨⟨(Program.parse first).program.statements ++ (Program.parse second).program.statements⟩,
        (Program.parse second).diagnostics⟩ := by
  unfold Program.parse
  rw [Token.scan_separated blank]
  exact ofTokens_append (fun _ member => Token.tag_ne_endOfInput member) (ofTokens_of_clean clean)
    ⟨ends, closed⟩

/-- A function before a semicolon, a binding without its sign and a brace that closes nothing. -/
theorem parsing_joins_malformed :
    let first := "let f = fn(x) { x };"
    let second := "; f(1) let b 5 \x7d"
    (Program.parse first).diagnostics = [] ∧ EndsIn .semicolon (scan first) ∧
      tally .leftBrace (scan first) = tally .rightBrace (scan first) ∧ Token.isBlank 0x0a ∧
      (Program.parse second).diagnostics = [.noOperand .semicolon,
        .unexpectedToken .assign .integer, .noOperand .rightBrace] ∧
      Program.parse (first ++ Token.spelling [0x0a] ++ second) =
        ⟨⟨(Program.parse first).program.statements ++ (Program.parse second).program.statements⟩,
          (Program.parse second).diagnostics⟩ := by
  intro first second
  have clean : (Program.parse first).diagnostics = [] := by decide +kernel
  have ends : EndsIn .semicolon (scan first) := by decide +kernel
  have closed : tally .leftBrace (scan first) = tally .rightBrace (scan first) := by decide +kernel
  have malformed : (Program.parse second).diagnostics = [.noOperand .semicolon,
      .unexpectedToken .assign .integer, .noOperand .rightBrace] := by
    decide +kernel
  exact ⟨clean, ends, closed, rfl, malformed, parsing_joins clean ends closed rfl⟩

end Monkey
