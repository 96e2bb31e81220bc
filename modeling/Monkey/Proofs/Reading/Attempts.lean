/-
This file makes the attempts to read a statement visible. A watcher is told of
each of them and may say something, which is noted with the diagnostics. Watchers
have no say in what is read, so the attempts are the same for all of them, and
what all watchers cause to be noted tells which attempts there were.

The attempts of a reading are spread over the tokens that it takes: each starts at
a token of its own. A diagnostic is found at the token that it names. Reading goes
on at this token if another one was expected there, and after it if no expression
starts with it. A statement and the end of a block both take a token, so nothing
is found twice in the same way at one token.
-/

import Monkey.Proofs.Reading.Foresight

namespace Monkey

/-! ### Statements in statements -/

mutual

/-- How many statements stand in an expression, at all levels. -/
def Expression.statementCount : Expression → Nat
  | .identifier _ | .integer _ | .boolean _ => 0
  | .prefixed _ operand => operand.statementCount
  | .infixed left _ right => left.statementCount + right.statementCount
  | .conditional condition consequence none =>
    condition.statementCount + countStatements consequence
  | .conditional condition consequence (some alternative) =>
    condition.statementCount + countStatements consequence + countStatements alternative
  | .function _ body => countStatements body
  | .call callee given => callee.statementCount + countStatementsAmong given

/-- How many statements stand in some expressions. -/
def countStatementsAmong : List Expression → Nat
  | [] => 0
  | first :: rest => first.statementCount + countStatementsAmong rest

/-- How many statements a statement consists of: itself and those that stand in it. -/
def Statement.statementCount : Statement → Nat
  | .binding _ value => value.statementCount + 1
  | .returning none => 1
  | .returning (some value) => value.statementCount + 1
  | .expression value => value.statementCount + 1

/-- How many statements there are among some, at all levels. -/
def countStatements : List Statement → Nat
  | [] => 0
  | first :: rest => first.statementCount + countStatements rest

end

theorem countStatements_append (statements more : List Statement) :
    countStatements (statements ++ more) = countStatements statements + countStatements more := by
  induction statements with
  | nil => exact (Nat.zero_add _).symm
  | cons first rest inductionHypothesis =>
    rw [List.cons_append, countStatements, countStatements, inductionHypothesis, Nat.add_assoc]

/-! ### Watchers -/

/-- Someone who is told of every attempt to read a statement: at which tokens it starts, and which
statement came of it, if one did. What is answered is noted. -/
abbrev Watcher := List Token → Option Statement → List Diagnostic

/-- The watcher who never says anything. -/
def Watcher.silent : Watcher := fun _ _ => []

def Outcome.result? {Result : Type} : Outcome Result → Option Result
  | accepted result _ _ => some result
  | rejected _ _ _ => none

/-- A reading of a statement with a watcher over it. -/
def Watcher.over (watcher : Watcher) (reading : Reading Statement) : Reading Statement :=
  fun tokens => (reading tokens).map fun outcome =>
    outcome.after (watcher tokens outcome.result?)

namespace Readings

/-- The readings with a watcher over their statements. -/
def watched (watcher : Watcher) (inner : Readings) : Readings :=
  { inner with statement := watcher.over inner.statement }

/-- The readings at a depth, with a watcher over every statement that they call for. -/
def watchedAtDepth (watcher : Watcher) : Nat → Readings
  | 0 => mute
  | depth + 1 => ((watchedAtDepth watcher depth).watched watcher).deeper

theorem watched_silent (inner : Readings) : inner.watched .silent = inner := by
  have nothing : ∀ outcome : Outcome Statement, outcome.after [] = outcome := by
    intro outcome
    cases outcome <;> rfl
  unfold watched Watcher.over Watcher.silent
  simp only [nothing, Option.map_id_fun', id]

/-- With a watcher who says nothing, the readings are what they are without one. -/
theorem watchedAtDepth_silent (depth : Nat) : watchedAtDepth .silent depth = atDepth depth := by
  induction depth with
  | zero => rfl
  | succ depth inductionHypothesis =>
    rw [watchedAtDepth, watched_silent, inductionHypothesis, atDepth]

end Readings

/-! ### Findings -/

/-- Whether another token was expected. -/
def Diagnostic.isUnexpected : Diagnostic → Bool
  | unexpectedToken _ _ => true
  | noOperand _ | invalidInteger _ => false

/-- A diagnostic, and the tokens from the one that it names on. -/
structure Finding where
  diagnostic : Diagnostic
  place : List Token

namespace Finding

/-- Where the next statement is looked for. -/
def resume (finding : Finding) : List Token :=
  if finding.diagnostic.isUnexpected then finding.place else finding.place.tail

/-- Made by what reads on from these tokens: their first token is named only if it starts no
expression. -/
def FreshAt (finding : Finding) (tokens : List Token) : Prop :=
  finding.place <:+ tokens.tail ∨
    finding.diagnostic.isUnexpected = false ∧ finding.place = tokens

theorem resume_suffix (finding : Finding) : finding.resume <:+ finding.place := by
  unfold resume
  split
  · exact List.suffix_rfl
  · exact List.tail_suffix _

theorem FreshAt.place_suffix {finding : Finding} {tokens : List Token}
    (fresh : finding.FreshAt tokens) : finding.place <:+ tokens := by
  obtain later | ⟨_, rfl⟩ := fresh
  · exact later.trans (List.tail_suffix _)
  · exact List.suffix_rfl

/-- What is in front of some tokens, or in front of their tail. -/
theorem suffix_or_suffix_tail {rest tokens : List Token} (within : rest <:+ tokens) :
    rest = tokens ∨ rest <:+ tokens.tail := by
  cases tokens with
  | nil => exact .inl (List.suffix_nil.mp within)
  | cons token tokens => exact List.suffix_cons_iff.mp within

theorem FreshAt.resume_suffix_tail {finding : Finding} {tokens : List Token}
    (fresh : finding.FreshAt tokens) : finding.resume <:+ tokens.tail := by
  obtain later | ⟨noOperand, rfl⟩ := fresh
  · exact finding.resume_suffix.trans later
  · rw [resume, noOperand]
    exact List.suffix_rfl

theorem FreshAt.widen {finding : Finding} {tokens wider : List Token}
    (fresh : finding.FreshAt tokens) (within : tokens <:+ wider) : finding.FreshAt wider := by
  obtain rfl | inner := suffix_or_suffix_tail within
  · exact fresh
  · exact .inl (fresh.place_suffix.trans inner)

end Finding

/-! ### Attempts -/

/-- One attempt to read a statement. -/
structure Attempt where
  start : List Token
  /-- The statement that came of it. -/
  found : Option Statement
  /-- What was found in the statement itself, apart from its blocks. -/
  own : List Finding

/-- Attempts one after the other, each with those that were made in its blocks. -/
inductive Attempts where
  | nil
  | cons (first : Attempt) (nested others : Attempts)

namespace Attempts

def append : Attempts → Attempts → Attempts
  | nil, more => more
  | cons first nested others, more => cons first nested (others.append more)

/-- All attempts, in the order in which they start. -/
def all : Attempts → List Attempt
  | nil => []
  | cons first nested others => first :: (nested.all ++ others.all)

/-- All findings, in the order in which they are made. -/
def findings : Attempts → List Finding
  | nil => []
  | cons first nested others => nested.findings ++ first.own ++ others.findings

/-- All that is noted: what the watcher says of an attempt, then what is noted in its blocks, then
what was found in the statement itself. -/
def noted (watcher : Watcher) : Attempts → List Diagnostic
  | nil => []
  | cons first nested others =>
    watcher first.start first.found ++ nested.noted watcher ++
      first.own.map Finding.diagnostic ++ others.noted watcher

/-- Each attempt with those in its blocks is one of these. -/
def Each (Holds : Attempt → Attempts → Prop) : Attempts → Prop
  | nil => True
  | cons first nested others => Holds first nested ∧ nested.Each Holds ∧ others.Each Holds

/-- How many attempts came to a statement. -/
def kept (attempts : Attempts) : Nat :=
  attempts.all.countP fun attempt => attempt.found.isSome

theorem all_append (attempts more : Attempts) :
    (attempts.append more).all = attempts.all ++ more.all := by
  induction attempts with
  | nil => rfl
  | cons first nested others _ inductionHypothesis =>
    simp only [append, all, inductionHypothesis, List.cons_append, List.append_assoc]

theorem findings_append (attempts more : Attempts) :
    (attempts.append more).findings = attempts.findings ++ more.findings := by
  induction attempts with
  | nil => rfl
  | cons first nested others _ inductionHypothesis =>
    simp only [append, findings, inductionHypothesis, List.append_assoc]

theorem noted_append (watcher : Watcher) (attempts more : Attempts) :
    (attempts.append more).noted watcher = attempts.noted watcher ++ more.noted watcher := by
  induction attempts with
  | nil => rfl
  | cons first nested others _ inductionHypothesis =>
    simp only [append, noted, inductionHypothesis, List.append_assoc]

theorem each_append {Holds : Attempt → Attempts → Prop} {attempts more : Attempts}
    (first : attempts.Each Holds) (second : more.Each Holds) :
    (attempts.append more).Each Holds := by
  induction attempts with
  | nil => exact second
  | cons attempt nested others _ inductionHypothesis =>
    exact ⟨first.1, first.2.1, inductionHypothesis first.2.2⟩

theorem kept_append (attempts more : Attempts) :
    (attempts.append more).kept = attempts.kept + more.kept := by
  rw [kept, all_append, List.countP_append]
  rfl

/-- Under the silent watcher, only what was found is noted. -/
theorem noted_silent (attempts : Attempts) :
    attempts.noted .silent = attempts.findings.map Finding.diagnostic := by
  induction attempts with
  | nil => rfl
  | cons first nested others nestedHypothesis othersHypothesis =>
    simp only [noted, findings, Watcher.silent, List.map_append, List.nil_append] at *
    rw [nestedHypothesis, othersHypothesis]

end Attempts

/-- The attempt found one thing wrong if no statement came of it, and nothing otherwise. -/
def Attempt.Settled (attempt : Attempt) : Prop :=
  (attempt.found.isSome → attempt.own = []) ∧ (attempt.found.isNone → attempt.own.length = 1)

/-- The attempt was made, with these in its blocks: where it starts, reading a statement comes to
what was found, and all that is noted is what the blocks and the statement itself gave rise to. -/
def Attempt.Made (attempt : Attempt) (nested : Attempts) : Prop :=
  ∃ depth, ∀ watcher, ∃ outcome,
    (Readings.watchedAtDepth watcher depth).statement attempt.start = some outcome ∧
      outcome.result? = attempt.found ∧
      outcome.diagnostics = nested.noted watcher ++ attempt.own.map Finding.diagnostic

/-- Attempts that were made between some tokens and a rest of them. -/
structure Attempts.Spread (attempts : Attempts) (start rest : List Token) : Prop where
  starts : ∀ attempt ∈ attempts.all,
    attempt.start ≠ [] ∧ attempt.start <:+ start ∧ rest <:+ attempt.start.tail
  apart : attempts.all.Pairwise fun earlier later => later.start <:+ earlier.start.tail
  settled : ∀ attempt ∈ attempts.all, attempt.Settled
  made : attempts.Each Attempt.Made
  named : ∀ finding ∈ attempts.findings, finding.diagnostic.Names (Token.first finding.place)
  fresh : ∀ finding ∈ attempts.findings, finding.FreshAt start
  left : ∀ finding ∈ attempts.findings, rest <:+ finding.resume
  ordered : attempts.findings.Pairwise fun earlier later => later.FreshAt earlier.resume

/-- More was taken since the last statement was given up. -/
def Attempts.Past (attempts : Attempts) (rest : List Token) : Prop :=
  ∀ finding ∈ attempts.findings, rest <:+ finding.resume.tail

namespace Attempts

variable {attempts more nested : Attempts} {start middle rest : List Token}

theorem Spread.nil : Attempts.nil.Spread start rest :=
  ⟨List.forall_mem_nil _, .nil, List.forall_mem_nil _, trivial, List.forall_mem_nil _,
    List.forall_mem_nil _, List.forall_mem_nil _, .nil⟩

theorem Past.nil : Attempts.nil.Past rest :=
  List.forall_mem_nil _

theorem Past.shorten (past : attempts.Past middle) (within : rest <:+ middle) :
    attempts.Past rest :=
  fun finding member => within.trans (past finding member)

theorem Past.append (past : attempts.Past rest) (also : more.Past rest) :
    (attempts.append more).Past rest := by
  unfold Past
  rw [findings_append]
  exact List.forall_mem_append.mpr ⟨past, also⟩

theorem Spread.widen {wider : List Token} (spread : attempts.Spread start rest)
    (within : start <:+ wider) : attempts.Spread wider rest where
  starts attempt member := by
    obtain ⟨present, begins, ends⟩ := spread.starts attempt member
    exact ⟨present, begins.trans within, ends⟩
  apart := spread.apart
  settled := spread.settled
  made := spread.made
  named := spread.named
  fresh finding member := (spread.fresh finding member).widen within
  left := spread.left
  ordered := spread.ordered

/-- Attempts after others, which were made from where these had stopped. -/
theorem Spread.append (spread : attempts.Spread start middle) (also : more.Spread middle rest)
    (begins : middle <:+ start) (ends : rest <:+ middle) :
    (attempts.append more).Spread start rest where
  starts := by
    rw [all_append]
    refine List.forall_mem_append.mpr ⟨fun attempt member => ?_, fun attempt member => ?_⟩
    · obtain ⟨present, inside, before⟩ := spread.starts attempt member
      exact ⟨present, inside, ends.trans before⟩
    · exact (also.widen begins).starts attempt member
  apart := by
    rw [all_append]
    refine List.pairwise_append.mpr ⟨spread.apart, also.apart, fun earlier before later after => ?_⟩
    exact (also.starts later after).2.1.trans (spread.starts earlier before).2.2
  settled := by
    rw [all_append]
    exact List.forall_mem_append.mpr ⟨spread.settled, also.settled⟩
  made := each_append spread.made also.made
  named := by
    rw [findings_append]
    exact List.forall_mem_append.mpr ⟨spread.named, also.named⟩
  fresh := by
    rw [findings_append]
    exact List.forall_mem_append.mpr ⟨spread.fresh, (also.widen begins).fresh⟩
  left := by
    rw [findings_append]
    exact List.forall_mem_append.mpr
      ⟨fun finding member => ends.trans (spread.left finding member), also.left⟩
  ordered := by
    rw [findings_append]
    refine List.pairwise_append.mpr
      ⟨spread.ordered, also.ordered, fun earlier before later after => ?_⟩
    exact (also.fresh later after).widen (spread.left earlier before)

/-- One attempt with those in its blocks. Whatever it found itself, it found after them. -/
theorem Spread.single {attempt : Attempt} (present : attempt.start ≠ [])
    (settled : attempt.Settled) (made : attempt.Made nested)
    (inner : nested.Spread attempt.start.tail middle) (taken : rest <:+ attempt.start.tail)
    (ends : rest <:+ middle)
    (own : ∀ finding ∈ attempt.own, finding.diagnostic.Names (Token.first finding.place) ∧
      finding.FreshAt attempt.start ∧ rest <:+ finding.resume ∧
        ∀ earlier ∈ nested.findings, finding.FreshAt earlier.resume)
    (ordered : attempt.own.Pairwise fun earlier later => later.FreshAt earlier.resume) :
    (Attempts.cons attempt nested .nil).Spread attempt.start rest where
  starts := by
    rw [all, all, List.append_nil]
    refine List.forall_mem_cons.mpr ⟨⟨present, List.suffix_rfl, taken⟩, fun other member => ?_⟩
    obtain ⟨some, inside, before⟩ := inner.starts other member
    exact ⟨some, inside.trans (List.tail_suffix _), ends.trans before⟩
  apart := by
    rw [all, all, List.append_nil]
    exact .cons (fun other member => (inner.starts other member).2.1) inner.apart
  settled := by
    rw [all, all, List.append_nil]
    exact List.forall_mem_cons.mpr ⟨settled, inner.settled⟩
  made := ⟨made, inner.made, trivial⟩
  named := by
    rw [findings, findings, List.append_nil]
    exact List.forall_mem_append.mpr ⟨inner.named, fun finding member => (own finding member).1⟩
  fresh := by
    rw [findings, findings, List.append_nil]
    exact List.forall_mem_append.mpr ⟨(inner.widen (List.tail_suffix _)).fresh,
      fun finding member => (own finding member).2.1⟩
  left := by
    rw [findings, findings, List.append_nil]
    exact List.forall_mem_append.mpr ⟨fun finding member => ends.trans (inner.left finding member),
      fun finding member => (own finding member).2.2.1⟩
  ordered := by
    rw [findings, findings, List.append_nil]
    exact List.pairwise_append.mpr ⟨inner.ordered, ordered,
      fun earlier before later after => (own later after).2.2.2 earlier before⟩

/-- An attempt that came to a statement. -/
theorem Spread.kept {tokens : List Token} (present : tokens ≠ []) {statement : Statement}
    (made : Attempt.Made ⟨tokens, some statement, []⟩ nested)
    (inner : nested.Spread tokens.tail rest) (taken : rest <:+ tokens.tail) :
    (Attempts.cons ⟨tokens, some statement, []⟩ nested .nil).Spread tokens rest :=
  .single present ⟨fun _ => rfl, nofun⟩ made inner taken List.suffix_rfl
    (List.forall_mem_nil _) .nil

/-- An attempt that was given up, past what was found in its blocks. -/
theorem Spread.dropped {tokens : List Token} (present : tokens ≠ []) {finding : Finding}
    (made : Attempt.Made ⟨tokens, none, [finding]⟩ nested)
    (inner : nested.Spread tokens.tail finding.place) (past : nested.Past finding.place)
    (named : finding.diagnostic.Names (Token.first finding.place))
    (fresh : finding.FreshAt tokens) :
    (Attempts.cons ⟨tokens, none, [finding]⟩ nested .nil).Spread tokens finding.resume :=
  .single present ⟨nofun, fun _ => rfl⟩ made inner fresh.resume_suffix_tail finding.resume_suffix
    (List.forall_mem_singleton.mpr ⟨named, fresh, List.suffix_rfl,
      fun earlier member => .inl (past earlier member)⟩)
    (List.pairwise_singleton _ _)

/-! ### Counting -/

/-- Every attempt left a statement or a finding. -/
theorem kept_add_findings (attempts : Attempts)
    (settled : ∀ attempt ∈ attempts.all, attempt.Settled) :
    attempts.kept + attempts.findings.length = attempts.all.length := by
  induction attempts with
  | nil => rfl
  | cons first nested others nestedHypothesis othersHypothesis =>
    rw [all, List.forall_mem_cons, List.forall_mem_append] at settled
    obtain ⟨⟨keeps, finds⟩, inner, outer⟩ := settled
    have inside := nestedHypothesis inner
    have after := othersHypothesis outer
    unfold kept at *
    simp only [all, findings, List.countP_cons, List.countP_append, List.length_append,
      List.length_cons]
    cases found : first.found with
    | none =>
      have one := finds (by rw [found]; rfl)
      simp only [Option.isSome_none, Bool.false_eq_true, if_false]
      omega
    | some statement =>
      have none := keeps (by rw [found]; rfl)
      simp only [Option.isSome_some, if_true, none, List.length_nil]
      omega

/-- No two attempts start at the same token. -/
theorem Spread.nodup (spread : attempts.Spread start rest) :
    (attempts.all.map Attempt.start).Nodup := by
  refine List.pairwise_map.mpr (spread.apart.imp_of_mem ?_)
  intro earlier later member _ after same
  have present := List.length_pos_iff.mpr (spread.starts earlier member).1
  have shorter := after.length_le
  rw [List.length_tail, ← same] at shorter
  omega

/-- There is no room for more end parts than tokens, if each is within the tail of the last. -/
theorem length_le_of_apart {starts : List (List Token)} {tokens : List Token}
    (within : ∀ start ∈ starts, start ≠ [] ∧ start <:+ tokens)
    (apart : starts.Pairwise fun earlier later => later <:+ earlier.tail) :
    starts.length ≤ tokens.length := by
  induction starts generalizing tokens with
  | nil => exact Nat.zero_le _
  | cons first others inductionHypothesis =>
    obtain ⟨⟨present, inside⟩, more⟩ := List.forall_mem_cons.mp within
    obtain ⟨after, apart⟩ := List.pairwise_cons.mp apart
    have fewer := inductionHypothesis
      (fun start member => ⟨(more start member).1, after start member⟩) apart
    have positive := List.length_pos_iff.mpr present
    have shorter := inside.length_le
    rw [List.length_tail] at fewer
    rw [List.length_cons]
    omega

theorem Spread.length_le (spread : attempts.Spread start rest) :
    attempts.all.length ≤ start.length := by
  rw [← List.length_map Attempt.start]
  refine length_le_of_apart (List.forall_mem_map.mpr fun attempt member => ?_)
    (List.pairwise_map.mpr spread.apart)
  obtain ⟨present, inside, _⟩ := spread.starts attempt member
  exact ⟨present, inside⟩

end Attempts

end Monkey
