/-
This file compares what the prompt counts with what is parsed. The prompt goes on
as long as more parentheses and braces are open than closed, and knows nothing of
the grammar. But in a source without diagnostics the parentheses come in pairs, so
the excess is that of the braces, and it is the number of blocks that the end of
the input closes. Written out, the missing braces change nothing in the program,
and with all of them the prompt does not go on.
-/

import Monkey.Proofs.Grammar.Unclosed
import Monkey.Proofs.Sessions.Groups

namespace Monkey.Prompt

open Grammar (Balanced Derives Unclosed closingBraces)
open Token (scan spelling tally)

/-- On this source the prompt and the grammar agree, and this many blocks are left open. -/
structure ContinuationAgrees (source : String) (count : Nat) : Prop where
  program : CommandLine.parse? source = none
  balanced : Balanced count (scan source)
  /-- The end of the input closes just as many blocks. -/
  unclosed : ∃ derivation :
    Derives (.statements (Program.parse source).program.statements) (scan source) [],
      ∀ closed, Unclosed closed derivation ↔ closed = count
  wants : needsMore source = decide (0 < count)
  /-- Closing braces in a text after a blank close blocks, and the program stays the same. -/
  closes : ∀ (separator : UInt8) (closing : String) (closed : Nat), Token.isBlank separator →
    scan closing = closingBraces closed → closed ≤ count →
      Program.parse (source ++ spelling [separator] ++ closing) = Program.parse source ∧
        needsMore (source ++ spelling [separator] ++ closing) = decide (closed < count)

variable {source : String} {count : Nat}

/-- The prompt wants more of a source without diagnostics if it has more opening braces. -/
theorem needsMore_of_clean (clean : (Program.parse source).diagnostics = [])
    (parentheses : tally .leftParen (scan source) = tally .rightParen (scan source))
    (braces : tally .leftBrace (scan source) = tally .rightBrace (scan source) + count) :
    needsMore source = decide (0 < count) := by
  have excess : excess (scan source) = count := by
    rw [excess_eq]
    omega
  rw [needsMore, CommandLine.parse?_of_clean clean, excess, Option.isNone_none, Bool.true_and]
  exact decide_eq_decide.mpr Int.natCast_pos

theorem tally_closingBraces (tag : Tag) (count : Nat) :
    tally tag (closingBraces count) = if tag = .rightBrace then count else 0 := by
  rw [tally, closingBraces, List.countP_replicate]
  simp [Grammar.closingBrace, eq_comm]

section Derivation

variable {construct : Grammar.Construct} {derivation : Derives construct (scan source) []}

/-- The blocks that the end of the input closes are the excess of opening braces. -/
theorem balanced_of_unclosed (unclosed : Unclosed count derivation) :
    Balanced count (scan source) := by
  obtain ⟨taken, same, balanced⟩ := unclosed.balances
  rw [List.append_nil] at same
  exact same ▸ balanced

theorem unclosed_iff (unclosed : Unclosed count derivation) {closed : Nat} :
    Unclosed closed derivation ↔ closed = count := by
  constructor
  · intro other
    have braces := (balanced_of_unclosed other).braces
    have := (balanced_of_unclosed unclosed).braces
    omega
  · rintro rfl
    exact unclosed

end Derivation

variable {text : String} {closed : Nat}

/-- Closing braces at the end close blocks that the end of the input would close. -/
theorem parse_of_closed (clean : (Program.parse source).diagnostics = [])
    (unclosed : Unclosed count (derives_of_clean clean))
    (tokens : scan text = scan source ++ closingBraces closed) (few : closed ≤ count) :
    Program.parse text = Program.parse source := by
  obtain ⟨taken, same, closable⟩ := unclosed.closes
  rw [List.append_nil] at same
  have parsed : Program.parse text = ⟨(Program.parse source).program, []⟩ := by
    rw [Grammar.parse_eq_iff_spells, tokens, same]
    have whole := closable.closes closed [] few (.inl rfl)
    rwa [List.append_nil] at whole
  exact parsed.trans (by rw [← clean])

/-- The prompt still wants more if fewer braces are closed than were left open. -/
theorem needsMore_of_closed (clean : (Program.parse text).diagnostics = [])
    (balanced : Balanced count (scan source))
    (tokens : scan text = scan source ++ closingBraces closed) (few : closed ≤ count) :
    needsMore text = decide (closed < count) := by
  have parentheses : tally .leftParen (scan text) = tally .rightParen (scan text) := by
    simpa [tokens, Token.tally_append, tally_closingBraces] using balanced.parentheses
  have opened := balanced.braces
  have remaining : tally .leftBrace (scan text) =
      tally .rightBrace (scan text) + (count - closed) := by
    simp only [tokens, Token.tally_append, tally_closingBraces, reduceCtorEq, if_true, if_false]
    omega
  rw [needsMore_of_clean clean parentheses remaining, decide_eq_decide]
  exact Nat.sub_pos_iff_lt

/-- For every source without diagnostics the prompt and the grammar agree. -/
theorem continuation_agrees (clean : (Program.parse source).diagnostics = []) :
    ∃ count, ContinuationAgrees source count := by
  obtain ⟨count, unclosed⟩ := (derives_of_clean clean).unclosed
  have balanced : Balanced count (scan source) := balanced_of_unclosed unclosed
  refine ⟨count, CommandLine.parse?_of_clean clean, balanced,
    ⟨derives_of_clean clean, fun closed => unclosed_iff unclosed⟩,
    needsMore_of_clean clean balanced.parentheses balanced.braces, ?_⟩
  intro separator closing closed blank braces few
  have tokens : scan (source ++ spelling [separator] ++ closing) =
      scan source ++ closingBraces closed := by
    rw [Token.scan_separated blank, braces]
  have parsed := parse_of_closed clean unclosed tokens few
  exact ⟨parsed, needsMore_of_closed (parsed ▸ clean) balanced tokens few⟩

/-- Two blocks are left open, and the brace in parentheses is closed. -/
theorem continuation_agrees_nested :
    let source := "let f = fn(x) \x7b if (fn() \x7b x \x7d()) \x7b f(x)"
    (Program.parse source).diagnostics = [] ∧
      ∃ count, count = 2 ∧ ContinuationAgrees source count := by
  intro source
  have clean : (Program.parse source).diagnostics = [] := by decide +kernel
  have braces : tally .leftBrace (scan source) = tally .rightBrace (scan source) + 2 := by
    decide +kernel
  obtain ⟨count, agrees⟩ := continuation_agrees clean
  have same := agrees.balanced.braces
  exact ⟨clean, count, by omega, agrees⟩

end Monkey.Prompt
