/-
This file puts the diagnostics of a source on its tokens. What the attempts to read
statements found is found from the front to the end: what is found later is at the
tokens that were left, and these start with a token that was named before only if
reading went on at it, as after a token that was not expected. Then an expression
has to start with it, so it is found wanting only once more, and in the other way.
-/

import Monkey.Proofs.Reading.Accounting
import Mathlib.Data.List.GetD

namespace Monkey

/-! ### Positions -/

/-- How many tokens of a source stand before some end part of them. -/
def Finding.position (tokens : List Token) (finding : Finding) : Nat :=
  tokens.length - finding.place.length

/-- The first of an end part is the token at its position. -/
theorem Token.first_eq_getD {tokens rest : List Token} (within : rest <:+ tokens) :
    Token.first rest = tokens.getD (tokens.length - rest.length) Token.endOfInput := by
  obtain ⟨taken, rfl⟩ := within
  rw [List.length_append, Nat.add_sub_cancel, List.getD_append_right _ _ _ _ le_rfl, Nat.sub_self]
  cases rest <;> rfl

namespace Finding

variable {tokens : List Token} {earlier later : Finding}

/-- What is found later is named no earlier. -/
theorem position_le (after : later.FreshAt earlier.resume) :
    earlier.position tokens ≤ later.position tokens :=
  Nat.sub_le_sub_left (after.place_suffix.trans earlier.resume_suffix).length_le _

/-- Past the token that an earlier finding named, the next token has a higher position. -/
theorem position_lt (within : earlier.place <:+ tokens)
    (inside : earlier.position tokens < tokens.length)
    (after : later.place <:+ earlier.place.tail) :
    earlier.position tokens < later.position tokens := by
  have shorter := after.length_le
  have bounded := within.length_le
  rw [List.length_tail] at shorter
  unfold position at *
  omega

/-- Two findings of the same kind are not at the same token. -/
theorem position_ne (after : later.FreshAt earlier.resume) (within : earlier.place <:+ tokens)
    (inside : earlier.position tokens < tokens.length)
    (kind : earlier.diagnostic.isUnexpected = later.diagnostic.isUnexpected) :
    earlier.position tokens ≠ later.position tokens := by
  refine Nat.ne_of_lt (position_lt within inside ?_)
  cases unexpected : earlier.diagnostic.isUnexpected with
  | true =>
    rw [FreshAt, resume, if_pos unexpected] at after
    obtain past | ⟨noOperand, _⟩ := after
    · exact past
    · cases noOperand.symm.trans (kind.symm.trans unexpected)
  | false =>
    have place := after.place_suffix
    rwa [resume, if_neg (Bool.eq_false_iff.mp unexpected)] at place

end Finding

/-! ### At most one of a kind -/

/-- If no two entries can both have a property, at most one entry has it. -/
theorem countP_le_one {Entry : Type} {entries : List Entry} {Apart : Entry → Entry → Prop}
    {property : Entry → Bool} (apart : entries.Pairwise Apart)
    (exclusive : ∀ earlier ∈ entries, ∀ later ∈ entries, Apart earlier later →
      property earlier → ¬ property later) :
    entries.countP property ≤ 1 := by
  rw [List.countP_eq_length_filter]
  have chosen : ∀ entry ∈ entries.filter property, entry ∈ entries ∧ property entry :=
    fun entry => List.mem_filter.mp
  cases some : entries.filter property with
  | nil => exact Nat.zero_le _
  | cons first others =>
    have both := apart.filter property
    rw [some] at chosen both
    cases others with
    | nil => exact le_rfl
    | cons second others =>
      obtain ⟨firstMember, firstHas⟩ := chosen first List.mem_cons_self
      obtain ⟨secondMember, secondHas⟩ := chosen second (List.mem_cons_of_mem _ List.mem_cons_self)
      exact absurd secondHas (exclusive first firstMember second secondMember
        (List.rel_of_pairwise_cons both List.mem_cons_self) firstHas)

/-- At a token before the end, at most one thing of each kind is found. -/
theorem Attempts.Spread.countP_le_one {attempts : Attempts} {tokens rest : List Token}
    (spread : attempts.Spread tokens rest) {position : Nat} (inside : position < tokens.length)
    (kind : Bool) :
    attempts.findings.countP (fun finding =>
      finding.position tokens = position ∧ finding.diagnostic.isUnexpected = kind) ≤ 1 := by
  refine Monkey.countP_le_one spread.ordered fun earlier member later _ after one other => ?_
  obtain ⟨here, oneKind⟩ := of_decide_eq_true one
  obtain ⟨there, otherKind⟩ := of_decide_eq_true other
  exact Finding.position_ne after (spread.fresh earlier member).place_suffix (here ▸ inside)
    (oneKind.trans otherKind.symm) (here.trans there.symm)

/-! ### Diagnostics -/

/-- Diagnostics come in the order of the source, each at the token that it names. A token is named
by at most two of them: once where another one was expected, and once where no expression starts. -/
theorem diagnostics_in_source_order (source : String) :
    ∃ positions : List Nat, positions.length = (Program.parse source).diagnostics.length ∧
      positions.Pairwise (· ≤ ·) ∧
      (∀ entry ∈ (Program.parse source).diagnostics.zip positions,
        entry.2 ≤ (Token.scan source).length ∧
          entry.1.Names ((Token.scan source).getD entry.2 Token.endOfInput)) ∧
      ∀ position < (Token.scan source).length,
        ((Program.parse source).diagnostics.zip positions).countP
            (fun entry => entry.2 = position) ≤ 2 ∧
          ((Program.parse source).diagnostics.zip positions).countP
            (fun entry => entry.2 = position ∧ entry.1.isUnexpected = true) ≤ 1 ∧
          ((Program.parse source).diagnostics.zip positions).countP
            (fun entry => entry.2 = position ∧ entry.1.isUnexpected = false) ≤ 1 := by
  obtain ⟨attempts, spread, _, recounted⟩ := exists_attempts source le_rfl
  rw [diagnostics_eq_of_recounted le_rfl recounted]
  refine ⟨attempts.findings.map (Finding.position (Token.scan source)), ?_, ?_, ?_, ?_⟩
  · rw [List.length_map, List.length_map]
  · exact List.pairwise_map.mpr (spread.ordered.imp Finding.position_le)
  · rw [List.zip_map']
    refine List.forall_mem_map.mpr fun finding member => ⟨Nat.sub_le _ _, ?_⟩
    have within := (spread.fresh finding member).place_suffix
    exact Token.first_eq_getD within ▸ spread.named finding member
  · intro position inside
    have unexpected := spread.countP_le_one inside true
    have noOperand := spread.countP_le_one inside false
    rw [List.zip_map', List.countP_map, List.countP_map, List.countP_map]
    refine ⟨?_, unexpected, noOperand⟩
    rw [List.countP_eq_countP_filter_add _ _ fun finding => finding.diagnostic.isUnexpected,
      List.countP_filter, List.countP_filter]
    simp only [Bool.decide_and, Bool.decide_eq_true, Bool.decide_eq_false] at unexpected noOperand
    exact Nat.add_le_add unexpected noOperand

-- The bound is met: a parenthesis in the place of a name starts no expression either.
example : (Program.parse "let ) x").diagnostics =
    [.unexpectedToken .identifier .rightParen, .noOperand .rightParen] := by
  decide +kernel

end Monkey
