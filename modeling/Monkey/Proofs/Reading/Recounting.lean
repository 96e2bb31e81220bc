/-
This file is about what all watchers tell of one reading. They recount it in the
same way: nothing came of it, or the same attempts were made on the way, spread
over the tokens that were taken, and all that is noted comes of these attempts and
of what the watcher says of them.

The attempts of a sequence are those of its first part and then those of its second.
In a row of statements each adds itself, around the attempts in its blocks.
-/

import Monkey.Proofs.Reading.Attempts

namespace Monkey

namespace Reading

variable {Result Following : Type} {start tokens : List Token}

/-! ### Sequences by their first part -/

theorem bind_of_eq_none {first : Reading Result} {second : Result → Reading Following}
    (nothing : first tokens = none) : (first >>= second) tokens = none := by
  change andThen first second tokens = _
  rw [andThen, nothing]

theorem bind_of_eq_rejected {first : Reading Result} {second : Result → Reading Following}
    {reported : Diagnostic} {noted : List Diagnostic} {resume : List Token}
    (rejected : first tokens = some (.rejected reported noted resume)) :
    (first >>= second) tokens = some (.rejected reported noted resume) := by
  change andThen first second tokens = _
  rw [andThen, rejected]

theorem bind_of_eq_accepted {first : Reading Result} {second : Result → Reading Following}
    {result : Result} {noted : List Diagnostic} {rest : List Token}
    (accepted : first tokens = some (.accepted result noted rest)) :
    (first >>= second) tokens = (second result rest).map (Outcome.after noted) := by
  change andThen first second tokens = _
  rw [andThen, accepted]

/-! ### Recounting -/

/-- No token is tagged as the end of the input. -/
def Endless (tokens : List Token) : Prop :=
  ∀ token ∈ tokens, token.tag ≠ .endOfInput

theorem Endless.suffix {rest : List Token} (endless : Endless tokens) (within : rest <:+ tokens) :
    Endless rest :=
  fun token member => endless token (within.subset member)

theorem Endless.eq_nil (endless : Endless tokens)
    (last : (Token.first tokens).tag = .endOfInput) : tokens = [] := by
  cases tokens with
  | nil => rfl
  | cons token rest => exact absurd last (endless token List.mem_cons_self)

/-- What comes of a reading under each watcher: nothing at all, or what is noted of attempts that
were made from `start` on. `Holds` is about the result and how many attempts came to statements. -/
inductive Recounted (Holds : Result → Nat → Prop) (start tokens : List Token)
    (outcome : Watcher → Option (Outcome Result)) : Prop
  | exhausted (nothing : ∀ watcher, outcome watcher = none)
  | accepted (attempts : Attempts) (result : Result) {rest : List Token}
      (spread : attempts.Spread start rest) (past : attempts.Past rest) (within : rest <:+ start)
      (holds : Holds result attempts.kept)
      (found : ∀ watcher, outcome watcher = some (.accepted result (attempts.noted watcher) rest))
  | rejected (attempts : Attempts) (finding : Finding)
      (spread : attempts.Spread start finding.place) (past : attempts.Past finding.place)
      (named : finding.diagnostic.Names (Token.first finding.place))
      (placed : finding.place <:+ if finding.diagnostic.isUnexpected then start else tokens)
      (found : ∀ watcher, outcome watcher =
        some (.rejected finding.diagnostic (attempts.noted watcher) finding.resume))

/-- At these tokens the reading is recounted, with attempts from `start` on. -/
def Recounts (Holds : Result → Nat → Prop) (start : List Token) (reading : Watcher → Reading Result)
    (tokens : List Token) : Prop :=
  start <:+ tokens ∧
    (Endless tokens → Recounted Holds start tokens fun watcher => reading watcher tokens)

/-- What comes of reading statements in a row. They are never given up, and what comes after them
is looked for behind the first token. -/
inductive Gathered (tokens : List Token) (outcome : Watcher → Option (Outcome (List Statement))) :
    Prop
  | exhausted (nothing : ∀ watcher, outcome watcher = none)
  | accepted (attempts : Attempts) (result : List Statement) {rest : List Token}
      (spread : attempts.Spread tokens rest) (past : attempts.Past rest)
      (taken : rest <:+ tokens.tail) (bounded : countStatements result ≤ attempts.kept)
      (found : ∀ watcher, outcome watcher = some (.accepted result (attempts.noted watcher) rest))

/-- At these tokens the statements are gathered. -/
def Gathers (reading : Watcher → Reading (List Statement)) (tokens : List Token) : Prop :=
  Endless tokens → Gathered tokens fun watcher => reading watcher tokens

theorem Gathers.recounts {reading : Watcher → Reading (List Statement)}
    (gathers : Gathers reading tokens) :
    Recounts (fun result count => countStatements result ≤ count) tokens reading tokens := by
  refine ⟨List.suffix_rfl, fun endless => ?_⟩
  cases gathers endless with
  | exhausted nothing => exact .exhausted nothing
  | accepted attempts result spread past taken bounded found =>
    exact .accepted attempts result spread past (taken.trans (List.tail_suffix _)) bounded found

namespace Recounts

variable {Holds Wanted : Result → Nat → Prop} {reading : Watcher → Reading Result}

theorem imp (recounts : Recounts Holds start reading tokens)
    (implies : ∀ result count, Holds result count → Wanted result count) :
    Recounts Wanted start reading tokens := by
  refine ⟨recounts.1, fun endless => ?_⟩
  cases recounts.2 endless with
  | exhausted nothing => exact .exhausted nothing
  | accepted attempts result spread past within holds found =>
    exact .accepted attempts result spread past within (implies _ _ holds) found
  | rejected attempts finding spread past named placed found =>
    exact .rejected attempts finding spread past named placed found

/-- Where attempts start is of no concern to what comes after. -/
theorem widen (recounts : Recounts Holds start reading tokens) :
    Recounts Holds tokens reading tokens := by
  obtain ⟨inner, recounts⟩ := recounts
  refine ⟨List.suffix_rfl, fun endless => ?_⟩
  cases recounts endless with
  | exhausted nothing => exact .exhausted nothing
  | accepted attempts result spread past within holds found =>
    exact .accepted attempts result (spread.widen inner) past (within.trans inner) holds found
  | rejected attempts finding spread past named placed found =>
    refine .rejected attempts finding (spread.widen inner) past named ?_ found
    rw [ite_self]
    split at placed
    · exact placed.trans inner
    · exact placed

/-! ### Single steps -/

theorem exhausted (within : start <:+ tokens) :
    Recounts Holds start (fun _ => exhausted) tokens :=
  ⟨within, fun _ => .exhausted fun _ => rfl⟩

theorem advance {Holds : Token → Nat → Prop} (holds : Holds (Token.first tokens) 0) :
    Recounts Holds tokens.tail (fun _ => advance) tokens :=
  ⟨List.tail_suffix _, fun _ => .accepted .nil _ .nil .nil List.suffix_rfl holds fun _ => rfl⟩

theorem pure {result : Result} (holds : Holds result 0) :
    Recounts Holds tokens (fun _ => pure result) tokens :=
  ⟨List.suffix_rfl, fun _ => .accepted .nil result .nil .nil List.suffix_rfl holds fun _ => rfl⟩

theorem upcoming_bind {second : Watcher → Tag → Reading Result}
    (next : Recounts Holds start (fun watcher => second watcher (Token.first tokens).tag) tokens) :
    Recounts Holds start (fun watcher => Reading.upcoming >>= second watcher) tokens := by
  simpa only [Recounts, Reading.upcoming_bind] using next

theorem advance_bind {second : Watcher → Token → Reading Result}
    (next : Recounts Holds tokens.tail (fun watcher => second watcher (Token.first tokens))
      tokens.tail) :
    Recounts Holds tokens.tail (fun watcher => Reading.advance >>= second watcher) tokens := by
  refine ⟨List.tail_suffix _, fun endless => ?_⟩
  simp only [Reading.advance_bind]
  cases next.2 (endless.suffix (List.tail_suffix _)) with
  | exhausted nothing => exact .exhausted nothing
  | accepted attempts result spread past within holds found =>
    exact .accepted attempts result spread past within holds found
  | rejected attempts finding spread past named placed found =>
    refine .rejected attempts finding spread past named ?_ found
    rw [ite_self] at placed
    split
    · exact placed
    · exact placed.trans (List.tail_suffix _)

/-- A token of which nothing more than its tag matters. -/
theorem advance_then {next : Watcher → Reading Result}
    (recounts : Recounts Holds tokens.tail next tokens.tail) :
    Recounts Holds tokens.tail (fun watcher => do let _ ← Reading.advance; next watcher) tokens :=
  advance_bind recounts

theorem ite {condition : Prop} [Decidable condition] {first second : Watcher → Reading Result}
    (holds : condition → Recounts Holds start first tokens)
    (fails : ¬ condition → Recounts Holds start second tokens) :
    Recounts Holds start (fun watcher => if condition then first watcher else second watcher)
      tokens := by
  split
  · exact holds ‹_›
  · exact fails ‹_›

/-- A token that is there, or the finding that another one is. -/
theorem expect (expected : Tag) :
    Recounts (fun _ _ => True) tokens (fun _ => expect expected) tokens := by
  refine upcoming_bind (ite (fun _ => (advance trivial).widen) fun _ => ?_)
  exact ⟨List.suffix_rfl, fun _ => .rejected .nil
    ⟨.unexpectedToken expected (Token.first tokens).tag, tokens⟩ .nil .nil rfl List.suffix_rfl
    fun _ => rfl⟩

theorem skip (tag : Tag) : Recounts (fun _ _ => True) tokens (fun _ => skip tag) tokens :=
  upcoming_bind (ite (fun _ => (advance_then (pure trivial)).widen) fun _ => pure trivial)

/-! ### Sequences -/

theorem bind {Holds : Result → Nat → Prop} {Wanted : Following → Nat → Prop}
    {first : Watcher → Reading Result} {second : Watcher → Result → Reading Following}
    (one : Recounts Holds start first tokens)
    (next : ∀ result count rest, Holds result count →
      Recounts (fun final more => Wanted final (count + more)) rest
        (fun watcher => second watcher result) rest) :
    Recounts Wanted start (fun watcher => first watcher >>= second watcher) tokens := by
  refine ⟨one.1, fun endless => ?_⟩
  cases one.2 endless with
  | exhausted nothing => exact .exhausted fun watcher => bind_of_eq_none (nothing watcher)
  | rejected attempts finding spread past named placed found =>
    exact .rejected attempts finding spread past named placed fun watcher =>
      bind_of_eq_rejected (found watcher)
  | @accepted attempts result rest spread past within holds found =>
    have inner := within.trans one.1
    cases (next result _ rest holds).2 (endless.suffix inner) with
    | exhausted nothing =>
      refine .exhausted fun watcher => (bind_of_eq_accepted (found watcher)).trans ?_
      have last : second watcher result rest = none := nothing watcher
      rw [last, Option.map_none]
    | accepted more final also pastMore ends wanted foundNext =>
      refine .accepted (attempts.append more) final (spread.append also within ends)
        ((past.shorten ends).append pastMore) (ends.trans within) ?_
        fun watcher => (bind_of_eq_accepted (found watcher)).trans ?_
      · rwa [Attempts.kept_append]
      · have last : second watcher result rest = _ := foundNext watcher
        rw [last, Attempts.noted_append]
        rfl
    | rejected more finding also pastMore named placed foundNext =>
      have placed : finding.place <:+ rest := by rwa [ite_self] at placed
      refine .rejected (attempts.append more) finding (spread.append also within placed)
        ((past.shorten placed).append pastMore) named ?_
        fun watcher => (bind_of_eq_accepted (found watcher)).trans ?_
      · split
        · exact placed.trans within
        · exact placed.trans inner
      · have last : second watcher result rest = _ := foundNext watcher
        rw [last, Attempts.noted_append]
        rfl

end Recounts

/-! ### Statements in a row -/

theorem over_of_eq_none {watcher : Watcher} {piece : Reading Statement}
    (nothing : piece tokens = none) : attempt (watcher.over piece) tokens = none := by
  unfold attempt Watcher.over
  rw [nothing]
  rfl

theorem over_of_eq_accepted {watcher : Watcher} {piece : Reading Statement} {statement : Statement}
    {noted : List Diagnostic} {rest : List Token}
    (accepted : piece tokens = some (.accepted statement noted rest)) :
    attempt (watcher.over piece) tokens =
      some (.accepted (some statement) (watcher tokens (some statement) ++ noted) rest) := by
  unfold attempt Watcher.over
  rw [accepted]
  rfl

theorem over_of_eq_rejected {watcher : Watcher} {piece : Reading Statement} {reported : Diagnostic}
    {noted : List Diagnostic} {resume : List Token}
    (rejected : piece tokens = some (.rejected reported noted resume)) :
    attempt (watcher.over piece) tokens =
      some (.accepted none (watcher tokens none ++ noted ++ [reported]) resume) := by
  unfold attempt Watcher.over
  rw [rejected]
  rfl

namespace Gathers

variable {first second : Watcher → Reading (List Statement)}

theorem upcoming_bind {second : Watcher → Tag → Reading (List Statement)}
    (next : Gathers (fun watcher => second watcher (Token.first tokens).tag) tokens) :
    Gathers (fun watcher => upcoming >>= second watcher) tokens := by
  simpa only [Gathers, Reading.upcoming_bind] using next

theorem ite {condition : Prop} [Decidable condition]
    (holds : condition → Gathers first tokens) (fails : ¬ condition → Gathers second tokens) :
    Gathers (fun watcher => if condition then first watcher else second watcher) tokens := by
  split
  · exact holds ‹_›
  · exact fails ‹_›

/-- A row that a token ends. -/
theorem closed : Gathers (fun _ => do let _ ← advance; return []) tokens :=
  fun _ => .accepted .nil [] .nil .nil List.suffix_rfl le_rfl fun _ => rfl

/-- A row that the end of the input ends. -/
theorem ended (last : (Token.first tokens).tag = .endOfInput) :
    Gathers (fun _ => pure []) tokens := by
  intro endless
  obtain rfl : tokens = [] := endless.eq_nil last
  exact .accepted .nil [] .nil .nil List.suffix_rfl le_rfl fun _ => rfl

end Gathers

/-- After one attempt the others are gathered. -/
theorem Gathered.attempted {first : Watcher → Reading (Option Statement)}
    {others : Watcher → Reading (List Statement)} (here : Attempts) (found : Option Statement)
    {middle : List Token} (spread : here.Spread tokens middle) (past : here.Past middle.tail)
    (taken : middle <:+ tokens.tail) (bounded : countStatements found.toList ≤ here.kept)
    (came : ∀ watcher, first watcher tokens = some (.accepted found (here.noted watcher) middle))
    (more : Gathered middle fun watcher => others watcher middle) :
    Gathered tokens fun watcher =>
      (do return (← first watcher).toList ++ (← others watcher) : Reading _) tokens := by
  cases more with
  | exhausted nothing =>
    exact .exhausted fun watcher =>
      (bind_of_eq_accepted (came watcher)).trans (by rw [bind_of_eq_none (nothing watcher)]; rfl)
  | @accepted more result rest also pastMore ends boundedMore foundMore =>
    have ended : rest <:+ middle := ends.trans (List.tail_suffix _)
    refine .accepted (here.append more) (found.toList ++ result)
      (spread.append also (taken.trans (List.tail_suffix _)) ended)
      ((past.shorten ends).append pastMore) (ended.trans taken) ?_ fun watcher => ?_
    · rw [countStatements_append, Attempts.kept_append]
      exact Nat.add_le_add bounded boundedMore
    · refine (bind_of_eq_accepted (came watcher)).trans ?_
      rw [bind_of_eq_accepted (foundMore watcher), Attempts.noted_append]
      exact congrArg some (congrArg (Outcome.accepted _ · rest) (by rw [List.append_nil]))

/-- One attempt, and then the others. -/
theorem Gathers.attempted {piece : Watcher → Reading Statement}
    {others : Watcher → Reading (List Statement)}
    (more : (Token.first tokens).tag ≠ .endOfInput) {depth : Nat}
    (same : ∀ watcher, piece watcher = (Readings.watchedAtDepth watcher depth).statement)
    (one : Recounts (fun statement count => statement.statementCount ≤ count + 1) tokens.tail piece
      tokens)
    (next : ∀ rest, Gathers others rest) :
    Gathers (fun watcher => do
      let found ← attempt (watcher.over (piece watcher))
      return found.toList ++ (← others watcher)) tokens := by
  have present : tokens ≠ [] := fun nothing => more (nothing ▸ rfl)
  intro endless
  cases one.2 endless with
  | exhausted nothing =>
    exact .exhausted fun watcher => bind_of_eq_none (over_of_eq_none (nothing watcher))
  | @accepted attempts statement rest spread past within holds found =>
    have made : Attempt.Made ⟨tokens, some statement, []⟩ attempts :=
      ⟨depth, fun watcher => ⟨_, same watcher ▸ found watcher, rfl, (List.append_nil _).symm⟩⟩
    refine .attempted (.cons ⟨tokens, some statement, []⟩ attempts .nil) (some statement)
      (.kept present made spread within) ?_ within ?_ (fun watcher => ?_)
      (next rest (endless.suffix (within.trans one.1)))
    · simpa [Attempts.Past, Attempts.findings] using past.shorten (List.tail_suffix _)
    · simpa [countStatements, Attempts.kept, Attempts.all] using holds
    · simp only [over_of_eq_accepted (found watcher), Attempts.noted, List.map_nil, List.append_nil]
  | rejected attempts finding spread past named placed found =>
    have fresh : finding.FreshAt tokens := by
      unfold Finding.FreshAt
      split at placed
      · exact .inl placed
      · obtain same | inner := Finding.suffix_or_suffix_tail placed
        · exact .inr ⟨Bool.eq_false_iff.mpr ‹_›, same⟩
        · exact .inl inner
    have taken := fresh.resume_suffix_tail
    have made : Attempt.Made ⟨tokens, none, [finding]⟩ attempts :=
      ⟨depth, fun watcher => ⟨_, same watcher ▸ found watcher, rfl, rfl⟩⟩
    refine .attempted (.cons ⟨tokens, none, [finding]⟩ attempts .nil) none
      (.dropped present made spread past named fresh) ?_ taken (Nat.zero_le _) (fun watcher => ?_)
      (next _ (endless.suffix (taken.trans (List.tail_suffix _))))
    · have after : finding.resume.tail <:+ finding.place :=
        (List.tail_suffix _).trans finding.resume_suffix
      simpa [Attempts.Past, Attempts.findings, or_imp, forall_and] using past.shorten after
    · simp [over_of_eq_rejected (found watcher), Attempts.noted]

end Reading

end Monkey
