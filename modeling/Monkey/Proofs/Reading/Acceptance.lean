/-
This file is about readings that succeed: a reading accepts some tokens if it
comes to a result and has noted nothing on the way. Each step accepts exactly
under one condition on the tokens, so what a whole reading accepts can be read
off its steps, in either direction. An accepted sequence goes on as its second
part does from where the first one stopped.
-/

import Monkey.Proofs.Reading.Depth

namespace Monkey.Reading

variable {Result Following : Type} {tokens rest : List Token}

/-- The reading comes to a result without a note and leaves the rest. -/
def Accepts (reading : Reading Result) (tokens : List Token) (result : Result)
    (rest : List Token) : Prop :=
  reading tokens = some (.accepted result [] rest)

theorem accepts_pure {result value : Result} :
    (pure value : Reading Result).Accepts tokens result rest ↔ result = value ∧ rest = tokens := by
  constructor
  · intro accepted
    cases accepted
    exact ⟨rfl, rfl⟩
  · rintro ⟨rfl, rfl⟩
    rfl

theorem not_accepts_reject {reported : Diagnostic} {result : Result} :
    ¬ (reject reported : Reading Result).Accepts tokens result rest := by
  intro accepted
  cases accepted

theorem not_accepts_exhausted {result : Result} :
    ¬ (exhausted : Reading Result).Accepts tokens result rest := by
  intro accepted
  cases accepted

/-- What comes after an accepted part comes to what it would alone. -/
theorem bind_of_accepts {first : Reading Result} {second : Result → Reading Following}
    {result : Result} {middle : List Token} (accepted : first.Accepts tokens result middle) :
    (first >>= second) tokens = second result middle := by
  change andThen first second tokens = _
  unfold andThen
  rw [accepted]
  cases found : second result middle with
  | none => simp only [found, Option.map_none]
  | some outcome =>
    cases outcome <;> simp only [found, Option.map_some, Outcome.after, List.nil_append]

theorem accepts_bind {first : Reading Result} {second : Result → Reading Following}
    {final : Following} :
    (first >>= second).Accepts tokens final rest ↔
      ∃ result middle, first.Accepts tokens result middle ∧
        (second result).Accepts middle final rest := by
  constructor
  · intro accepted
    obtain ⟨_, _, _, _, equal⟩ | ⟨result, noted, middle, last, one, other, equal⟩ :=
      bind_eq_some accepted
    · cases equal
    · cases last with
      | rejected reported later resume => cases equal
      | accepted value later after =>
        simp only [Outcome.after, Outcome.accepted.injEq] at equal
        obtain ⟨rfl, nothing, rfl⟩ := equal
        obtain ⟨rfl, rfl⟩ := List.append_eq_nil_iff.mp nothing.symm
        exact ⟨result, middle, one, other⟩
  · rintro ⟨result, middle, one, other⟩
    exact (bind_of_accepts one).trans other

theorem accepts_upcoming : upcoming.Accepts tokens (Token.first tokens).tag tokens :=
  rfl

theorem accepts_advance : advance.Accepts tokens (Token.first tokens) tokens.tail :=
  rfl

theorem upcoming_bind (second : Tag → Reading Following) :
    (upcoming >>= second) tokens = second (Token.first tokens).tag tokens :=
  bind_of_accepts accepts_upcoming

theorem advance_bind (second : Token → Reading Following) :
    (advance >>= second) tokens = second (Token.first tokens) tokens.tail :=
  bind_of_accepts accepts_advance

theorem accepts_upcoming_bind {second : Tag → Reading Following} {final : Following} :
    (upcoming >>= second).Accepts tokens final rest ↔
      (second (Token.first tokens).tag).Accepts tokens final rest := by
  unfold Accepts
  rw [upcoming_bind]

theorem accepts_advance_bind {second : Token → Reading Following} {final : Following} :
    (advance >>= second).Accepts tokens final rest ↔
      (second (Token.first tokens)).Accepts tokens.tail final rest := by
  unfold Accepts
  rw [advance_bind]

theorem accepts_ite {condition : Prop} [Decidable condition] {first second : Reading Result}
    {result : Result} :
    (if condition then first else second).Accepts tokens result rest ↔
      condition ∧ first.Accepts tokens result rest ∨
        ¬ condition ∧ second.Accepts tokens result rest := by
  split <;> simp [*]

/-- A tag that is not that of the end of the input is the tag of a first token. -/
theorem first_tag_eq {tag : Tag} (tagged : tag ≠ .endOfInput) :
    (Token.first tokens).tag = tag ↔ ∃ token after, tokens = token :: after ∧ token.tag = tag := by
  cases tokens with
  | nil => simp [Token.first, Token.endOfInput, tagged.symm]
  | cons token after => simp [Token.first]

theorem accepts_expect {expected : Tag} (tagged : expected ≠ .endOfInput) {token : Token} :
    (expect expected).Accepts tokens token rest ↔ tokens = token :: rest ∧ token.tag = expected := by
  unfold expect
  rw [accepts_upcoming_bind, accepts_ite, first_tag_eq tagged]
  constructor
  · rintro (⟨⟨head, after, rfl, same⟩, taken⟩ | ⟨_, taken⟩)
    · cases taken
      exact ⟨rfl, same⟩
    · exact absurd taken not_accepts_reject
  · rintro ⟨rfl, same⟩
    exact .inl ⟨⟨token, rest, rfl, same⟩, rfl⟩

theorem accepts_expect_bind {expected : Tag} (tagged : expected ≠ .endOfInput)
    {second : Token → Reading Following} {final : Following} :
    (expect expected >>= second).Accepts tokens final rest ↔
      ∃ token middle, tokens = token :: middle ∧ token.tag = expected ∧
        (second token).Accepts middle final rest := by
  simp only [accepts_bind, accepts_expect tagged, and_assoc]

theorem accepts_attempt {piece : Reading Result} {found : Option Result} :
    (attempt piece).Accepts tokens found rest ↔
      ∃ result, found = some result ∧ piece.Accepts tokens result rest := by
  unfold Accepts attempt
  constructor
  · intro accepted
    split at accepted
    · cases accepted
    · rename_i one
      cases accepted
      exact ⟨_, rfl, one⟩
    · simp at accepted
  · rintro ⟨result, rfl, one⟩
    rw [one]

theorem skip_of_tag {tag : Tag} (same : (Token.first tokens).tag = tag) :
    (skip tag).Accepts tokens () tokens.tail := by
  unfold skip
  rw [accepts_upcoming_bind, if_pos same]
  rfl

theorem skip_of_ne {tag : Tag} (other : (Token.first tokens).tag ≠ tag) :
    (skip tag).Accepts tokens () tokens := by
  unfold skip
  rw [accepts_upcoming_bind, if_neg other]
  rfl

theorem accepts_skip {tag : Tag} :
    (skip tag).Accepts tokens () rest ↔
      (Token.first tokens).tag = tag ∧ rest = tokens.tail ∨
        (Token.first tokens).tag ≠ tag ∧ rest = tokens := by
  by_cases same : (Token.first tokens).tag = tag
  · have skipped := skip_of_tag same
    unfold Accepts at skipped ⊢
    simp [skipped, same, eq_comm]
  · have skipped := skip_of_ne same
    unfold Accepts at skipped ⊢
    simp [skipped, same, eq_comm]

end Monkey.Reading
