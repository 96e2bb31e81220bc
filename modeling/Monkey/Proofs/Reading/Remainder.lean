/-
This file says what a reading leaves of the tokens. Whatever comes of it, the
tokens at which it stops are an end part of those it was given, and a reading of
an operand, of an expression or of a statement has taken at least one token,
also when it gives up. The bound on the depth rests on this: between two entries
of the same reading a token is gone.
-/

import Monkey.Program.Parser
import Mathlib.Data.List.Infix

namespace Monkey

/-- The tokens at which a reading has stopped. -/
def Outcome.remaining {Result : Type} : Outcome Result → List Token
  | accepted _ _ rest => rest
  | rejected _ _ resume => resume

theorem Outcome.remaining_after {Result : Type} (earlier : List Diagnostic)
    (outcome : Outcome Result) : (outcome.after earlier).remaining = outcome.remaining := by
  cases outcome <;> rfl

namespace Reading

variable {Result Following : Type}

/-- Whatever comes of the reading, it leaves an end part of the tokens. -/
def LeavesEnd (reading : Reading Result) : Prop :=
  ∀ tokens outcome, reading tokens = some outcome → outcome.remaining <:+ tokens

/-- Whatever comes of the reading, it takes the first token if there is one. -/
def TakesFirst (reading : Reading Result) : Prop :=
  ∀ tokens outcome, reading tokens = some outcome → outcome.remaining <:+ tokens.tail

theorem TakesFirst.leavesEnd {reading : Reading Result} (takes : reading.TakesFirst) :
    reading.LeavesEnd :=
  fun tokens outcome found => (takes tokens outcome found).trans (List.tail_suffix tokens)

/-! ### Single steps -/

theorem leavesEnd_exhausted : (exhausted : Reading Result).LeavesEnd := by
  intro tokens outcome found
  cases found

theorem takesFirst_exhausted : (exhausted : Reading Result).TakesFirst := by
  intro tokens outcome found
  cases found

theorem leavesEnd_pure (result : Result) : (pure result : Reading Result).LeavesEnd := by
  intro tokens outcome found
  cases found
  exact List.suffix_rfl

theorem leavesEnd_reject (reported : Diagnostic) :
    (reject reported : Reading Result).LeavesEnd := by
  intro tokens outcome found
  cases found
  exact List.suffix_rfl

theorem leavesEnd_upcoming : upcoming.LeavesEnd := by
  intro tokens outcome found
  cases found
  exact List.suffix_rfl

theorem takesFirst_advance : advance.TakesFirst := by
  intro tokens outcome found
  cases found
  exact List.suffix_rfl

/-! ### Steps one after the other -/

/-- What a sequence comes to is what its first part rejects, or what its second part comes to. -/
theorem bind_eq_some {first : Reading Result} {second : Result → Reading Following}
    {tokens : List Token} {outcome : Outcome Following}
    (found : (first >>= second) tokens = some outcome) :
    (∃ reported noted resume, first tokens = some (.rejected reported noted resume) ∧
        outcome = .rejected reported noted resume) ∨
      ∃ result noted rest final, first tokens = some (.accepted result noted rest) ∧
        second result rest = some final ∧ outcome = final.after noted := by
  change andThen first second tokens = some outcome at found
  unfold andThen at found
  split at found
  · cases found
  · rename_i reported noted resume rejected
    exact .inl ⟨reported, noted, resume, rejected, (Option.some.inj found).symm⟩
  · rename_i result noted rest accepted
    obtain ⟨final, last, rfl⟩ := Option.map_eq_some_iff.mp found
    exact .inr ⟨result, noted, rest, final, accepted, last, rfl⟩

theorem LeavesEnd.bind {first : Reading Result} {second : Result → Reading Following}
    (leaves : first.LeavesEnd) (next : ∀ result, (second result).LeavesEnd) :
    (first >>= second).LeavesEnd := by
  intro tokens outcome found
  obtain ⟨_, _, _, rejected, rfl⟩ | ⟨result, _, _, _, accepted, last, rfl⟩ := bind_eq_some found
  · exact leaves _ _ rejected
  · rw [Outcome.remaining_after]
    exact (next result _ _ last).trans (leaves _ _ accepted)

theorem TakesFirst.bind {first : Reading Result} {second : Result → Reading Following}
    (takes : first.TakesFirst) (next : ∀ result, (second result).LeavesEnd) :
    (first >>= second).TakesFirst := by
  intro tokens outcome found
  obtain ⟨_, _, _, rejected, rfl⟩ | ⟨result, _, _, _, accepted, last, rfl⟩ := bind_eq_some found
  · exact takes _ _ rejected
  · rw [Outcome.remaining_after]
    exact (next result _ _ last).trans (takes _ _ accepted)

/-- Looking at the next tag leaves it to what follows to take a token. -/
theorem takesFirst_upcoming_bind {second : Tag → Reading Following}
    (next : ∀ tag, (second tag).TakesFirst) : (upcoming >>= second).TakesFirst := by
  intro tokens outcome found
  obtain ⟨_, _, _, rejected, rfl⟩ | ⟨result, _, _, _, accepted, last, rfl⟩ := bind_eq_some found
  · cases rejected
  · cases accepted
    rw [Outcome.remaining_after]
    exact next _ _ _ last

theorem LeavesEnd.ite {condition : Prop} [Decidable condition] {first second : Reading Result}
    (holds : first.LeavesEnd) (fails : second.LeavesEnd) :
    (if condition then first else second).LeavesEnd := by
  split
  · exact holds
  · exact fails

theorem leavesEnd_expect (expected : Tag) : (expect expected).LeavesEnd :=
  leavesEnd_upcoming.bind fun _ => takesFirst_advance.leavesEnd.ite (leavesEnd_reject _)

theorem leavesEnd_skip (tag : Tag) : (skip tag).LeavesEnd :=
  leavesEnd_upcoming.bind fun _ =>
    (takesFirst_advance.leavesEnd.bind fun _ => leavesEnd_pure _).ite (leavesEnd_pure _)

/-- A piece that may be given up stops where the piece itself does. -/
theorem attempt_eq_some {piece : Reading Result} {tokens : List Token}
    {outcome : Outcome (Option Result)} (found : attempt piece tokens = some outcome) :
    ∃ inner, piece tokens = some inner ∧ outcome.remaining = inner.remaining := by
  unfold attempt at found
  split at found
  · cases found
  · rename_i accepted
    cases found
    exact ⟨_, accepted, rfl⟩
  · rename_i rejected
    cases found
    exact ⟨_, rejected, rfl⟩

theorem attempt_not_rejected {piece : Reading Result} {tokens resume : List Token}
    {reported : Diagnostic} {noted : List Diagnostic} :
    attempt piece tokens ≠ some (.rejected reported noted resume) := by
  intro rejected
  unfold attempt at rejected
  split at rejected <;> cases rejected

theorem TakesFirst.attempt {piece : Reading Result} (takes : piece.TakesFirst) :
    (attempt piece).TakesFirst := by
  intro tokens outcome found
  obtain ⟨inner, result, same⟩ := attempt_eq_some found
  rw [same]
  exact takes _ _ result

/-! ### The pieces of a program -/

end Reading

open Reading

/-- What the readings of the pieces leave. -/
structure Remainders (readings : Readings) : Prop where
  names : readings.names.LeavesEnd
  operand : readings.operand.TakesFirst
  expression : ∀ floor, (readings.expression floor).TakesFirst
  extension : ∀ floor left, (readings.extension floor left).LeavesEnd
  arguments : readings.arguments.LeavesEnd
  expressions : readings.expressions.LeavesEnd
  block : readings.block.LeavesEnd
  statement : readings.statement.TakesFirst
  statements : readings.statements.LeavesEnd

namespace Remainders

theorem mute : Remainders .mute where
  names := leavesEnd_exhausted
  operand := takesFirst_exhausted
  expression _ := takesFirst_exhausted
  extension _ _ := leavesEnd_exhausted
  arguments := leavesEnd_exhausted
  expressions := leavesEnd_exhausted
  block := leavesEnd_exhausted
  statement := takesFirst_exhausted
  statements := leavesEnd_exhausted

variable {inner : Readings}

theorem parameters (leaves : Remainders inner) : inner.parameters.LeavesEnd :=
  leavesEnd_upcoming.bind fun _ =>
    (takesFirst_advance.leavesEnd.bind fun _ => leavesEnd_pure _).ite leaves.names

theorem conditional (leaves : Remainders inner) : inner.conditional.LeavesEnd := by
  refine (leavesEnd_expect _).bind fun _ => (leaves.expression _).leavesEnd.bind fun _ => ?_
  refine (leavesEnd_expect _).bind fun _ => (leavesEnd_expect _).bind fun _ => ?_
  refine leaves.block.bind fun _ => leavesEnd_upcoming.bind fun _ => LeavesEnd.ite ?_ ?_
  · exact takesFirst_advance.leavesEnd.bind fun _ => (leavesEnd_expect _).bind fun _ =>
      leaves.block.bind fun _ => leavesEnd_pure _
  · exact leavesEnd_pure _

theorem function (leaves : Remainders inner) : inner.function.LeavesEnd := by
  refine (leavesEnd_expect _).bind fun _ => leaves.parameters.bind fun _ => ?_
  exact (leavesEnd_expect _).bind fun _ => leaves.block.bind fun _ => leavesEnd_pure _

theorem operandAfter (leaves : Remainders inner) (token : Token) :
    (inner.operandAfter token).LeavesEnd := by
  have expression : ∀ floor, (inner.expression floor).LeavesEnd :=
    fun floor => (leaves.expression floor).leavesEnd
  unfold Readings.operandAfter
  split
  · exact leavesEnd_pure _
  · split
    · exact leavesEnd_pure _
    · exact leavesEnd_reject _
  · exact leavesEnd_pure _
  · exact leavesEnd_pure _
  · exact (expression _).bind fun _ => leavesEnd_pure _
  · exact (expression _).bind fun _ => leavesEnd_pure _
  · exact (expression _).bind fun _ => (leavesEnd_expect _).bind fun _ => leavesEnd_pure _
  · exact leaves.conditional
  · exact leaves.function
  · exact leavesEnd_reject _

theorem extension_deeper (leaves : Remainders inner) (floor : Precedence) (left : Expression) :
    (inner.deeper.extension floor left).LeavesEnd := by
  refine leavesEnd_upcoming.bind fun tag => LeavesEnd.ite ?_ (leavesEnd_pure _)
  refine takesFirst_advance.leavesEnd.bind fun _ => ?_
  split
  · exact (leaves.expression _).leavesEnd.bind fun _ => leaves.extension _ _
  · exact leaves.arguments.bind fun _ => leaves.extension _ _

theorem binding (leaves : Remainders inner) : inner.binding.LeavesEnd := by
  refine (leavesEnd_expect _).bind fun _ => (leavesEnd_expect _).bind fun _ => ?_
  exact (leaves.expression _).leavesEnd.bind fun _ => (leavesEnd_skip _).bind fun _ =>
    leavesEnd_pure _

theorem returning (leaves : Remainders inner) : inner.returning.LeavesEnd := by
  refine leavesEnd_upcoming.bind fun _ => LeavesEnd.ite ?_ ?_
  · exact (leavesEnd_skip _).bind fun _ => leavesEnd_pure _
  · exact (leaves.expression _).leavesEnd.bind fun _ => (leavesEnd_skip _).bind fun _ =>
      leavesEnd_pure _

theorem statement_deeper (leaves : Remainders inner) : inner.deeper.statement.TakesFirst := by
  refine takesFirst_upcoming_bind fun tag => ?_
  split
  · exact takesFirst_advance.bind fun _ => leaves.binding
  · exact takesFirst_advance.bind fun _ => leaves.returning
  · exact (leaves.expression _).bind fun _ => (leavesEnd_skip _).bind fun _ => leavesEnd_pure _

theorem deeper (leaves : Remainders inner) : Remainders inner.deeper where
  names := by
    refine (leavesEnd_expect _).bind fun _ => leavesEnd_upcoming.bind fun _ => LeavesEnd.ite ?_ ?_
    · exact takesFirst_advance.leavesEnd.bind fun _ => leaves.names.bind fun _ => leavesEnd_pure _
    · exact (leavesEnd_expect _).bind fun _ => leavesEnd_pure _
  operand := takesFirst_advance.bind leaves.operandAfter
  expression floor := leaves.operand.bind fun left => leaves.extension floor left
  extension := leaves.extension_deeper
  arguments := leavesEnd_upcoming.bind fun _ =>
    (takesFirst_advance.leavesEnd.bind fun _ => leavesEnd_pure _).ite leaves.expressions
  expressions := by
    refine (leaves.expression _).leavesEnd.bind fun _ => leavesEnd_upcoming.bind fun _ => ?_
    refine LeavesEnd.ite ?_ ((leavesEnd_expect _).bind fun _ => leavesEnd_pure _)
    exact takesFirst_advance.leavesEnd.bind fun _ => leaves.expressions.bind fun _ =>
      leavesEnd_pure _
  block := by
    refine leavesEnd_upcoming.bind fun _ => LeavesEnd.ite ?_ (LeavesEnd.ite (leavesEnd_pure _) ?_)
    · exact takesFirst_advance.leavesEnd.bind fun _ => leavesEnd_pure _
    · exact leaves.statement.attempt.leavesEnd.bind fun _ => leaves.block.bind fun _ =>
        leavesEnd_pure _
  statement := leaves.statement_deeper
  statements := by
    refine leavesEnd_upcoming.bind fun _ => LeavesEnd.ite (leavesEnd_pure _) ?_
    exact leaves.statement.attempt.leavesEnd.bind fun _ => leaves.statements.bind fun _ =>
      leavesEnd_pure _

end Remainders

theorem remainders_atDepth (depth : Nat) : Remainders (.atDepth depth) := by
  induction depth with
  | zero => exact .mute
  | succ depth inductionHypothesis => exact inductionHypothesis.deeper

end Monkey
