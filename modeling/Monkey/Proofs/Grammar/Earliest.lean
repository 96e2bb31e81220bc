/-
This file shows that the first diagnostic of a source names the earliest token
that can be wrong. The tokens before it are the longest part at the start of the
source that some source without diagnostics starts with as well: they can be
completed to such a source, and no source that goes on with the token that is
named is one.
-/

import Monkey.Proofs.Grammar.Diagnosis
import Monkey.Proofs.Grammar.Parsing
import Mathlib.Order.Bounds.Basic
import Mathlib.Order.Lattice.Nat

namespace Monkey

open Reading
open Token (scan)

/-- Some source that is parsed without diagnostics starts with these tokens. -/
def Viable (tokens : List Token) : Prop :=
  ∃ source program, tokens <+: scan source ∧ Program.parse source = ⟨program, []⟩

/-- How many tokens at the start of a source some source without diagnostics starts with as well. -/
def viableLengths (source : String) : Set Nat :=
  {count | count ≤ (scan source).length ∧ Viable ((scan source).take count)}

theorem mem_viableLengths {source : String} {taken rest : List Token}
    (split : scan source = taken ++ rest) (viable : Viable taken) :
    taken.length ∈ viableLengths source := by
  have fits : taken <+: scan source := ⟨rest, split.symm⟩
  have whole : (scan source).take taken.length = taken := by rw [split, List.take_left]
  exact ⟨fits.length_le, whole.symm ▸ viable⟩

/-- If a part at the start of a source is viable, then there is a longest one. -/
theorem exists_longest {source : String} (some : (viableLengths source).Nonempty) :
    ∃ count, IsGreatest (viableLengths source) count := by
  have bounded : BddAbove (viableLengths source) :=
    ⟨(scan source).length, fun _ member => member.1⟩
  exact ⟨sSup (viableLengths source), Nat.sSup_mem some bounded,
    fun _ member => le_csSup bounded member⟩

namespace Grammar

/-! ### Tokens that can be completed -/

/-- Tokens of a source that can be completed to statements are viable. -/
theorem viable_of_completable {source : String} {taken : List Token}
    (begins : taken <+: scan source) (opened : Completable (Piece.any .statements) taken) :
    Viable taken := by
  obtain ⟨completion, written, derives⟩ := opened
  obtain ⟨trees, derivation⟩ := derives []
  rw [List.append_nil] at derivation
  have legal : ∀ token ∈ taken ++ completion, token.tag ≠ .illegal := by
    obtain ⟨same, split, movable⟩ := derivation.moves
    rw [split, List.append_nil]
    exact movable.legal
  have all : ∀ token ∈ taken ++ completion, Token.Written token := by
    refine List.forall_mem_append.mpr ⟨fun token member => ?_, written⟩
    have layout := Token.layout_scanBytes (Token.bytesOf source)
    exact layout.written token (begins.subset member) (legal token (List.mem_append_left _ member))
  have scanned := Token.scan_spaced all
  refine ⟨Token.spaced (taken ++ completion), ⟨trees⟩, ?_, ?_⟩
  · rw [scanned]
    exact List.prefix_append _ _
  · unfold Program.parse
    rw [scanned, ofTokens_eq_iff]
    exact ⟨[], (read_of_derives derivation).2 rfl⟩

/-! ### Reading at a common depth -/

/-- At a depth that suffices, the bound on the depth makes no difference. -/
theorem statements_atDepth {depth : Nat} {tokens : List Token}
    (enough : Readings.sufficientDepth tokens.length ≤ depth) :
    (Readings.atDepth depth).statements tokens = Readings.unbounded.statements tokens :=
  ((agreement_unbounded depth).statements tokens enough).eq

/-- The first diagnostic of a source names a token, and the tokens before it are viable. A source
that starts with these and with the token that is named has diagnostics, unless it is longer than
the depth allows. -/
theorem exists_named {source : String} {reported : Diagnostic} {others : List Diagnostic}
    (faulty : (Program.parse source).diagnostics = reported :: others) {depth : Nat}
    (enough : Readings.sufficientDepth (scan source).length ≤ depth) :
    ∃ taken rest, scan source = taken ++ rest ∧ reported.Names (Token.first rest) ∧ Viable taken ∧
      ∀ other program, Readings.sufficientDepth (scan other).length ≤ depth →
        Program.parse other = ⟨program, []⟩ → ∀ token after, rest = token :: after →
          ¬ taken ++ [token] <+: scan other := by
  obtain ⟨statements, noted, remaining, found⟩ := statements_accepted (scan source)
  have same : noted = reported :: others := by
    unfold Program.parse at faulty
    rwa [ofTokens_eq _ found] at faulty
  subst same
  rw [← statements_atDepth enough] at found
  cases (foreseeing_atDepth depth).statements _ _ found with
  | @faulty _ first rest taken report split names opened again =>
    obtain rfl : reported = first := Option.some.inj report
    refine ⟨taken, rest, split, names, viable_of_completable ⟨rest, split.symm⟩ opened, ?_⟩
    rintro other program bounded clean token after tail ⟨more, goes⟩
    rw [List.append_assoc, List.singleton_append] at goes
    obtain ⟨left, accepted⟩ := (ofTokens_eq_iff _ _).mp clean
    unfold Accepts at accepted
    rw [← statements_atDepth bounded, ← goes] at accepted
    cases again token after more _ tail accepted

/-- The first diagnostic of a source names the token after the longest viable part at its start,
which is the end of the input if all of the source is viable. -/
theorem first_diagnostic_is_earliest {source : String} {reported : Diagnostic}
    {others : List Diagnostic} (faulty : (Program.parse source).diagnostics = reported :: others) :
    ∃ count, IsGreatest (viableLengths source) count ∧
      reported.Names (Token.first ((scan source).drop count)) := by
  have some : (viableLengths source).Nonempty := by
    obtain ⟨taken, rest, split, _, viable, _⟩ := exists_named faulty le_rfl
    exact ⟨taken.length, mem_viableLengths split viable⟩
  obtain ⟨count, longest⟩ := exists_longest some
  refine ⟨count, longest, ?_⟩
  -- At a depth that suffices for a source which starts with the longest part, the named token is
  -- the one after that part.
  obtain ⟨within, other, program, begins, clean⟩ := longest.1
  obtain ⟨taken, rest, split, names, viable, blocked⟩ := exists_named faulty
    (le_max_left _ (Readings.sufficientDepth (scan other).length))
  have reaches : taken.length = count := by
    refine le_antisymm (longest.2 (mem_viableLengths split viable)) (not_lt.mp fun shorter => ?_)
    cases rest with
    | nil =>
      rw [List.append_nil] at split
      rw [split] at within
      exact absurd shorter (not_lt.mpr within)
    | cons token after =>
      have next : taken ++ [token] <+: scan source :=
        ⟨after, by rw [split, List.append_assoc, List.singleton_append]⟩
      have early : taken ++ [token] <+: (scan source).take count := by
        refine List.prefix_of_prefix_length_le next (List.take_prefix _ _) ?_
        rw [List.length_take_of_le within, List.length_append, List.length_singleton]
        exact shorter
      exact blocked other program (le_max_right _ _) clean token after rfl (early.trans begins)
  rwa [← reaches, split, List.drop_left]

/-- A condition that is not closed before the block. -/
theorem first_diagnostic_is_earliest_unclosed :
    (Program.parse "let a = if (b { 1 }").diagnostics =
        [.unexpectedToken .rightParen .leftBrace, .noOperand .leftBrace, .noOperand .rightBrace] ∧
      ∃ count, IsGreatest (viableLengths "let a = if (b { 1 }") count ∧
        (Diagnostic.unexpectedToken .rightParen .leftBrace).Names
          (Token.first ((scan "let a = if (b { 1 }").drop count)) := by
  have faulty : (Program.parse "let a = if (b { 1 }").diagnostics =
      [.unexpectedToken .rightParen .leftBrace, .noOperand .leftBrace, .noOperand .rightBrace] := by
    decide +kernel
  exact ⟨faulty, first_diagnostic_is_earliest faulty⟩

end Grammar

end Monkey
