/-
This file ties the grammar to programs as they are parsed. Reading statements
always comes to an end without being given up, and stops before the end of the
input. No token of a source is tagged as that end, so nothing is left over: a
source is parsed without diagnostics exactly if the grammar spells it, and what
comes of it is the tree of the derivation.
-/

import Monkey.Proofs.Grammar.Completeness
import Monkey.Proofs.Grammar.Soundness

namespace Monkey

open Reading

/-! ### Tokens of a source -/

namespace Token

/-- A tag that is neither the default nor in a table is never looked up. -/
theorem getD_lookup_ne {Key : Type} [BEq Key] [LawfulBEq Key] {entries : List (Key × Tag)}
    {default tag : Tag} (different : default ≠ tag) (others : ∀ entry ∈ entries, entry.2 ≠ tag)
    (key : Key) : (entries.lookup key).getD default ≠ tag := by
  cases found : entries.lookup key with
  | none => exact different
  | some value =>
    obtain ⟨before, after, rfl, _⟩ := List.lookup_eq_some_iff.mp found
    exact others _ (List.mem_append_right _ List.mem_cons_self)

theorem wordTag_ne_endOfInput (word : String) : wordTag word ≠ .endOfInput :=
  getD_lookup_ne (by decide) (by decide) word

theorem signTag_ne_endOfInput (sign : Char) : signTag sign ≠ .endOfInput :=
  getD_lookup_ne (by decide) (by decide) sign

theorem tag_lexeme_ne_endOfInput (head : UInt8) (rest : List UInt8) :
    (lexeme head rest).1.tag ≠ .endOfInput := by
  unfold lexeme
  split
  · exact wordTag_ne_endOfInput _
  split
  · exact Tag.noConfusion
  split
  · exact Tag.noConfusion
  split
  · exact Tag.noConfusion
  · exact signTag_ne_endOfInput _

/-- No token of a source is tagged as the end of the input. -/
theorem tag_ne_endOfInput {bytes : List UInt8} {token : Token} (member : token ∈ scanBytes bytes) :
    token.tag ≠ .endOfInput := by
  induction bytes using scanBytes.induct with
  | case1 bytes found =>
    rw [scanBytes] at member
    split at member
    · cases member
    · rename_i different
      rw [found] at different
      cases different
  | case2 bytes head rest found inductionHypothesis =>
    rw [scanBytes] at member
    split at member
    · cases member
    · rename_i first others same
      rw [found] at same
      obtain ⟨rfl, rfl⟩ := List.cons.inj same
      obtain rfl | member := List.mem_cons.mp member
      · exact tag_lexeme_ne_endOfInput head rest
      · exact inductionHypothesis member

end Token

/-! ### Reading to the end -/

/-- Reading statements gives nothing up: each statement may be given up on its own. -/
theorem statements_not_rejected (depth : Nat) {tokens resume : List Token} {reported : Diagnostic}
    {noted : List Diagnostic} :
    (Readings.atDepth depth).statements tokens ≠ some (.rejected reported noted resume) := by
  induction depth generalizing tokens resume reported noted with
  | zero =>
    intro rejected
    cases rejected
  | succ depth inductionHypothesis =>
    intro rejected
    simp only [Readings.atDepth, Readings.deeper] at rejected
    rw [upcoming_bind] at rejected
    split at rejected
    · cases rejected
    · obtain ⟨_, _, _, first, _⟩ | ⟨_, _, _, final, _, rest, same⟩ := bind_eq_some rejected
      · exact attempt_not_rejected first
      · obtain ⟨_, _, _, others, _⟩ | ⟨_, _, _, _, _, last, equal⟩ := bind_eq_some rest
        · exact inductionHypothesis others
        · cases last
          rw [equal] at same
          cases same

theorem unbounded_statements (tokens : List Token) : Readings.unbounded.statements tokens =
    (Readings.atDepth (Readings.sufficientDepth tokens.length)).statements tokens :=
  rfl

/-- Reading statements always comes to some, perhaps with notes. -/
theorem statements_accepted (tokens : List Token) :
    ∃ statements noted rest,
      Readings.unbounded.statements tokens = some (.accepted statements noted rest) := by
  obtain ⟨outcome, _, found⟩ := (agreement_unbounded _).statements tokens le_rfl
  cases outcome with
  | accepted statements noted rest => exact ⟨statements, noted, rest, found⟩
  | rejected reported noted resume =>
    rw [unbounded_statements] at found
    exact absurd found (statements_not_rejected _)

theorem ofTokens_eq (tokens : List Token) {statements : List Statement} {noted : List Diagnostic}
    {rest : List Token}
    (found : Readings.unbounded.statements tokens = some (.accepted statements noted rest)) :
    Program.ofTokens tokens = ⟨⟨statements⟩, noted⟩ := by
  unfold Program.ofTokens
  rw [← unbounded_statements, found]

/-- Tokens are parsed without diagnostics exactly if their statements are accepted. -/
theorem ofTokens_eq_iff (tokens : List Token) (program : Program) :
    Program.ofTokens tokens = ⟨program, []⟩ ↔
      ∃ rest, Readings.unbounded.statements.Accepts tokens program.statements rest := by
  constructor
  · intro parsed
    obtain ⟨statements, noted, rest, found⟩ := statements_accepted tokens
    rw [ofTokens_eq tokens found] at parsed
    cases parsed
    exact ⟨rest, found⟩
  · rintro ⟨rest, accepted⟩
    exact ofTokens_eq tokens accepted

namespace Grammar

/-- What is accepted of tokens without an end among them derives from all of them. -/
theorem derives_of_accepts {tokens rest : List Token} {statements : List Statement}
    (endless : ∀ token ∈ tokens, token.tag ≠ .endOfInput)
    (accepted : Readings.unbounded.statements.Accepts tokens statements rest) :
    Derives (.statements statements) tokens [] := by
  have bounded := accepted
  unfold Accepts at bounded
  rw [unbounded_statements] at bounded
  obtain ⟨derivation, ended⟩ := (sound_atDepth _).statements _ _ _ bounded
  have suffix : rest <:+ tokens := remainders_unbounded.statements _ _ accepted
  cases rest with
  | nil => exact derivation
  | cons token rest =>
    -- A token that is left over would be tagged as the end.
    exact absurd ended (endless token (suffix.subset List.mem_cons_self))

/-- A source is parsed without diagnostics exactly as the grammar spells it. -/
theorem parse_eq_iff_spells (source : String) (program : Program) :
    Program.parse source = ⟨program, []⟩ ↔ Spells (Token.scan source) program := by
  unfold Program.parse Spells
  rw [ofTokens_eq_iff]
  constructor
  · rintro ⟨rest, accepted⟩
    exact derives_of_accepts (fun _ member => Token.tag_ne_endOfInput member) accepted
  · intro derivation
    exact ⟨[], (read_of_derives derivation).2 rfl⟩

end Grammar

end Monkey
