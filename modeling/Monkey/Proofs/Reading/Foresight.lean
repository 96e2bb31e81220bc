/-
This file is about how little a reading looks ahead. What it does with the tokens
that it takes depends on the tag of one token after them and on nothing beyond.
So a reading that succeeds does the same before any other rest that starts with
the same tag; and one with a diagnostic has its first diagnostic from one token,
which the diagnostic names, whatever stands after that token.

What was taken before that token is still open: it has a property that is a
parameter here, and that will say that it can be completed.
-/

import Monkey.Proofs.Reading.Acceptance

namespace Monkey

/-- Everything that was found to be wrong, in order. -/
def Outcome.diagnostics {Result : Type} : Outcome Result → List Diagnostic
  | accepted _ noted _ => noted
  | rejected reported noted _ => noted ++ [reported]

/-- The diagnostic is about this token. -/
def Diagnostic.Names : Diagnostic → Token → Prop
  | unexpectedToken _ got, token => got = token.tag
  | noOperand found, token => found = token.tag
  | invalidInteger digits, token => token.tag = .integer ∧ digits = token.text

theorem Outcome.diagnostics_after {Result : Type} (earlier : List Diagnostic)
    (outcome : Outcome Result) :
    (outcome.after earlier).diagnostics = earlier ++ outcome.diagnostics := by
  cases outcome with
  | accepted => rfl
  | rejected => exact List.append_assoc _ _ _

/-- The tag that comes next depends on what comes after some tokens only by its first tag. -/
theorem Token.first_append_tag {taken rest other : List Token}
    (same : (Token.first other).tag = (Token.first rest).tag) :
    (Token.first (taken ++ other)).tag = (Token.first (taken ++ rest)).tag := by
  cases taken with
  | nil => exact same
  | cons token taken => rfl

namespace Reading

variable {Result Following : Type} {tokens : List Token}

/-- An outcome of a reading that was decided by one token after those that it took: a result that
comes of any other rest with the same first tag, or a first diagnostic that names the token and
comes of it whatever stands after it. Then the tokens before it are open. -/
inductive Foreseen (Open : List Token → Prop) (reading : Reading Result) (tokens : List Token) :
    Outcome Result → Prop
  | accepted {result : Result} {rest : List Token} (taken : List Token)
      (split : tokens = taken ++ rest)
      (again : ∀ other outcome, (Token.first other).tag = (Token.first rest).tag →
        reading (taken ++ other) = some outcome → outcome = .accepted result [] other) :
    Foreseen Open reading tokens (.accepted result [] rest)
  | faulty {outcome : Outcome Result} {reported : Diagnostic} {rest : List Token}
      (taken : List Token) (first : outcome.diagnostics.head? = some reported)
      (split : tokens = taken ++ rest)
      (names : reported.Names (Token.first rest)) (opened : Open taken)
      (again : ∀ token after other outcome, rest = token :: after →
        reading (taken ++ token :: other) = some outcome →
          outcome.diagnostics.head? = some reported) :
    Foreseen Open reading tokens outcome

/-- Whatever the reading comes to at these tokens is decided by one token after those taken. -/
def Foresees (Open : List Token → Prop) (reading : Reading Result) (tokens : List Token) : Prop :=
  ∀ outcome, reading tokens = some outcome → Foreseen Open reading tokens outcome

namespace Foresees

variable {Open : List Token → Prop}

/-! ### Single steps -/

theorem exhausted : Foresees Open (exhausted : Reading Result) tokens :=
  fun _ found => nomatch found

theorem pure (result : Result) : Foresees Open (pure result) tokens := by
  intro outcome found
  cases found
  refine .accepted [] rfl fun other outcome _ again => ?_
  cases again
  rfl

theorem upcoming : Foresees Open upcoming tokens := by
  intro outcome found
  cases found
  refine .accepted [] rfl fun other outcome same again => ?_
  cases again
  rw [← same]
  rfl

theorem advance (token : Token) (rest : List Token) : Foresees Open advance (token :: rest) := by
  intro outcome found
  cases found
  refine .accepted [token] rfl fun other outcome _ again => ?_
  cases again
  rfl

/-- A diagnostic about the token that is next. -/
theorem reject {reported : Diagnostic} (names : reported.Names (Token.first tokens))
    (opened : Open []) : Foresees Open (reject reported : Reading Result) tokens := by
  intro outcome found
  cases found
  refine .faulty [] rfl rfl names opened fun token after other outcome _ again => ?_
  cases again
  rfl

theorem weaken {Wanted : List Token → Prop} {reading : Reading Result}
    (foresees : Foresees Open reading tokens)
    (wanted : ∀ taken rest, tokens = taken ++ rest → Open taken → Wanted taken) :
    Foresees Wanted reading tokens := by
  intro outcome found
  cases foresees outcome found with
  | accepted taken split again => exact .accepted taken split again
  | faulty taken first split names opened again =>
    exact .faulty taken first split names (wanted _ _ split opened) again

/-! ### Sequences -/

/-- The first diagnostic of a first part stays the first one, whatever comes of the second. -/
theorem head_of_bind {first : Reading Result} {second : Result → Reading Following}
    {reported : Diagnostic} (reports : ∀ outcome, first tokens = some outcome →
      outcome.diagnostics.head? = some reported) {outcome : Outcome Following}
    (found : (first >>= second) tokens = some outcome) :
    outcome.diagnostics.head? = some reported := by
  obtain ⟨_, _, _, rejected, rfl⟩ | ⟨_, noted, _, final, accepted, _, rfl⟩ := bind_eq_some found
  · exact reports _ rejected
  · have noted : noted.head? = some reported := reports _ accepted
    rw [Outcome.diagnostics_after, List.head?_append, noted]
    rfl

/-- After a first part that is accepted, a sequence comes to what its second part comes to. -/
theorem second_of_bind {first : Reading Result} {second : Result → Reading Following}
    {result : Result} {rest : List Token}
    (accepts : ∀ outcome, first tokens = some outcome → outcome = .accepted result [] rest)
    {outcome : Outcome Following} (found : (first >>= second) tokens = some outcome) :
    second result rest = some outcome := by
  obtain ⟨_, _, _, rejected, _⟩ | ⟨_, _, _, _, accepted, _, _⟩ := bind_eq_some found
  · cases accepts _ rejected
  · cases accepts _ accepted
    rwa [bind_of_accepts accepted] at found

/-- In a sequence, what was taken first stands before what is open in the second part. -/
theorem bind {first : Reading Result} {second : Result → Reading Following}
    (one : Foresees Open first tokens)
    (next : ∀ result taken rest, tokens = taken ++ rest → first.Accepts tokens result rest →
      Foresees (fun more => Open (taken ++ more)) (second result) rest) :
    Foresees Open (first >>= second) tokens := by
  intro outcome found
  cases here : first tokens with
  | none =>
    obtain ⟨_, _, _, rejected, _⟩ | ⟨_, _, _, _, accepted, _, _⟩ := bind_eq_some found
    · rw [here] at rejected
      cases rejected
    · rw [here] at accepted
      cases accepted
  | some earlier =>
    cases one earlier here with
    | faulty taken report split names opened again =>
      refine .faulty taken (head_of_bind (fun other same => ?_) found) split names opened ?_
      · rw [here] at same
        cases same
        exact report
      · exact fun token after other last after_ repeated =>
          head_of_bind (fun inner => again token after other inner after_) repeated
    | @accepted result rest taken split again =>
      have repeats : ∀ other, (Token.first other).tag = (Token.first rest).tag →
          ∀ last, (first >>= second) (taken ++ other) = some last →
            second result other = some last :=
        fun other same last => second_of_bind fun inner => again other inner same
      subst split
      cases next result taken rest rfl here outcome (repeats rest rfl outcome found) with
      | accepted more splitMore againMore =>
        subst splitMore
        refine .accepted (taken ++ more) (List.append_assoc _ _ _).symm ?_
        intro other last same repeated
        rw [List.append_assoc] at repeated
        exact againMore other last same
          (repeats _ (Token.first_append_tag same) last repeated)
      | faulty more report splitMore names opened againMore =>
        subst splitMore
        refine .faulty (taken ++ more) report (List.append_assoc _ _ _).symm names opened ?_
        rintro token after other last rfl repeated
        rw [List.append_assoc] at repeated
        have sameTag : (Token.first (more ++ token :: other)).tag =
            (Token.first (more ++ token :: after)).tag := Token.first_append_tag rfl
        exact againMore token after other last rfl (repeats _ sameTag last repeated)

theorem ite {condition : Prop} [Decidable condition] {first second : Reading Result}
    (holds : condition → Foresees Open first tokens)
    (fails : ¬ condition → Foresees Open second tokens) :
    Foresees Open (if condition then first else second) tokens := by
  split
  · exact holds ‹_›
  · exact fails ‹_›

theorem upcoming_bind {second : Tag → Reading Following}
    (next : Foresees Open (second (Token.first tokens).tag) tokens) :
    Foresees Open (Reading.upcoming >>= second) tokens := by
  refine upcoming.bind fun tag taken rest split accepted => ?_
  cases accepted
  obtain rfl : taken = [] := List.append_left_eq_self.mp split.symm
  exact next

/-- Taking a token that is there. -/
theorem advance_bind {token : Token} {rest : List Token} {second : Token → Reading Following}
    (next : Foresees (fun more => Open (token :: more)) (second token) rest) :
    Foresees Open (Reading.advance >>= second) (token :: rest) := by
  refine (advance token rest).bind fun result taken after split accepted => ?_
  cases accepted
  obtain rfl : taken = [token] := List.append_left_injective rest split.symm
  exact next

/-- Where another token than the expected one is found, nothing was taken yet. -/
theorem expect {expected : Tag} (tagged : expected ≠ .endOfInput) (opened : Open []) :
    Foresees Open (expect expected) tokens := by
  refine upcoming_bind (ite (fun same => ?_) fun _ => reject rfl opened)
  obtain ⟨token, rest, rfl, _⟩ := (first_tag_eq tagged).mp same
  exact advance token rest

theorem skip {tag : Tag} (tagged : tag ≠ .endOfInput) : Foresees Open (skip tag) tokens := by
  refine upcoming_bind (ite (fun same => ?_) fun _ => pure _)
  obtain ⟨token, rest, rfl, _⟩ := (first_tag_eq tagged).mp same
  exact advance_bind (pure _)

/-- A piece that may be given up reports what the piece does, and succeeds if it does. -/
theorem of_attempt {piece : Reading Result} {outcome : Outcome (Option Result)}
    (found : piece.attempt tokens = some outcome) :
    ∃ earlier, piece tokens = some earlier ∧ outcome.diagnostics = earlier.diagnostics ∧
      ∀ result rest, earlier = .accepted result [] rest →
        outcome = .accepted (some result) [] rest := by
  unfold Reading.attempt at found
  split at found
  · cases found
  · rename_i accepted
    cases found
    refine ⟨_, accepted, rfl, fun result rest same => ?_⟩
    cases same
    rfl
  · rename_i rejected
    cases found
    exact ⟨_, rejected, rfl, fun result rest same => nomatch same⟩

theorem attempt {piece : Reading Result} (foresees : Foresees Open piece tokens) :
    Foresees Open piece.attempt tokens := by
  intro outcome found
  obtain ⟨earlier, here, same, accepts⟩ := of_attempt found
  cases foresees earlier here with
  | accepted taken split again =>
    rw [accepts _ _ rfl]
    refine .accepted taken split fun other last tag repeated => ?_
    obtain ⟨before, there, _, acceptsThere⟩ := of_attempt repeated
    exact acceptsThere _ _ (again other before tag there)
  | faulty taken report split names opened again =>
    refine .faulty taken (same ▸ report) split names opened ?_
    intro token after other last tail repeated
    obtain ⟨before, there, sameThere, _⟩ := of_attempt repeated
    rw [sameThere]
    exact again token after other before tail there

end Foresees

end Reading

end Monkey
