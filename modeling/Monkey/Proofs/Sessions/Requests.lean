/-
This file is about sessions over time. A session is given inputs to run, asked
for what names are bound to, and told to forget its bindings, one request after
the other.

What requests do to the store of a session are operations on stores, so the store
is always well-formed, also if evaluations are interrupted.

Besides requests, the flag of a session may be raised between two of them. That
does not matter: before an evaluation the flag is lowered, and while nobody
raises it an evaluation goes as it does without a flag. So a session with a flag
gives the responses of one without, and leaves the same bindings.
-/

import Monkey.Proofs.Evaluation.Links
import Monkey.Proofs.Evaluation.Signals
import Monkey.Session

namespace Monkey

/-! ### Inputs -/

/-- What is said of how a program ended. -/
def Program.reply (program : Program) : Completion → Reply
  | .stopped value => .value value
  | .finished value => if program.showsValue then .value value else .silence

namespace Session

variable {session next last : Session} {depth : Nat}

theorem evaluate_eq (session : Session) (depth : Nat) (program : Program) :
    session.evaluate depth program =
      (program.run depth session.scope session.machine).map
        fun (completion, machine) => (completion, session.after machine) := by
  show (program.run depth session.scope session.machine).bind _ = _
  cases program.run depth session.scope session.machine <;> rfl

/-- An input without diagnostics is evaluated. -/
theorem run_of_clean (session : Session) (depth : Nat) {source : String}
    (clean : (Program.parse source).diagnostics = []) :
    session.run depth source = (session.evaluate depth (Program.parse source).program).map
      fun (completion, after) => ((Program.parse source).program.reply completion, after) := by
  unfold run
  split
  · rename_i program parsed
    rw [parsed]
    cases session.evaluate depth program with
    | none => rfl
    | some ended =>
      obtain ⟨completion, after⟩ := ended
      cases completion <;> rfl
  · rename_i program diagnostics noted parsed
    rw [parsed] at clean
    exact absurd clean noted

/-- An input with diagnostics is refused. -/
theorem run_of_refused (session : Session) (depth : Nat) {source : String}
    (refused : (Program.parse source).diagnostics ≠ []) :
    session.run depth source = some (.refusal (Program.parse source).diagnostics, session) := by
  unfold run
  split
  · rename_i program parsed
    rw [parsed] at refused
    exact absurd rfl refused
  · rename_i program diagnostics noted parsed
    rw [parsed]

/-! ### Requests -/

/-- What a session can be asked for. -/
inductive Request where
  | run (source : String)
  | reset
  | value (name : String)
  | names (stem : String)

/-- What a session responds. -/
inductive Response where
  | reply (reply : Reply)
  | done
  | value (found : Option Value)
  | names (names : List String)

/-- Takes a request. -/
def respond (session : Session) (depth : Nat) : Request → Option (Response × Session)
  | .run source => (session.run depth source).map fun (reply, after) => (.reply reply, after)
  | .reset => some (.done, session.reset)
  | .value name => some (.value (session.get? name), session)
  | .names stem => some (.names (session.namesWithStem stem), session)

/-- Takes requests in order. -/
def respondAll (depth : Nat) (session : Session) : List Request → Option (List Response × Session)
  | [] => some ([], session)
  | request :: rest => do
    let (response, next) ← session.respond depth request
    let (responses, last) ← respondAll depth next rest
    return (response :: responses, last)

variable {request : Request} {response : Response} {responses : List Response}

theorem respondAll_cons_eq_some {rest : List Request} :
    session.respondAll depth (request :: rest) = some (responses, last) ↔
      ∃ response next others, session.respond depth request = some (response, next) ∧
        next.respondAll depth rest = some (others, last) ∧ responses = response :: others := by
  constructor
  · intro taken
    obtain ⟨⟨response, next⟩, one, taken⟩ := Option.bind_eq_some_iff.mp taken
    obtain ⟨⟨others, after⟩, rest, same⟩ := Option.bind_eq_some_iff.mp taken
    obtain ⟨rfl, rfl⟩ := Prod.mk.inj (Option.some.inj same)
    exact ⟨response, next, others, one, rest, rfl⟩
  · rintro ⟨response, next, others, one, rest, rfl⟩
    exact Option.bind_eq_some_iff.mpr
      ⟨(response, next), one, Option.bind_eq_some_iff.mpr ⟨(others, last), rest, rfl⟩⟩

/-! ### The store of a session -/

theorem present_reset (session : Session) :
    session.reset.scope < session.reset.store.scopes.size := by
  show session.store.scopes.size < (session.store.add none).2.scopes.size
  rw [Store.size_add]
  exact Nat.lt_succ_self _

/-- A request is at most one operation on the store, and the scope of the session is there. -/
theorem operates_of_respond (present : session.scope < session.store.scopes.size)
    (responded : session.respond depth request = some (response, next)) :
    Relation.ReflTransGen Store.Operates session.store next.store ∧
      next.scope < next.store.scopes.size := by
  cases request with
  | reset =>
    cases responded
    exact ⟨.single .create, session.present_reset⟩
  | value name | names stem =>
    cases responded
    exact ⟨.refl, present⟩
  | run source =>
    by_cases clean : (Program.parse source).diagnostics = []
    · simp only [respond, run_of_clean _ depth clean, evaluate_eq, Option.map_map,
        Option.map_eq_some_iff] at responded
      obtain ⟨⟨completion, machine⟩, ended, same⟩ := responded
      cases same
      have steps := Run.compositional_takes.program _ depth session.scope _ _ _ ended
      exact ⟨.single (.evaluate present ended), Nat.lt_of_lt_of_le present steps.size_le⟩
    · simp only [respond, run_of_refused _ depth clean] at responded
      cases responded
      exact ⟨.refl, present⟩

theorem operates_of_respondAll {requests : List Request}
    (present : session.scope < session.store.scopes.size)
    (responded : session.respondAll depth requests = some (responses, last)) :
    Relation.ReflTransGen Store.Operates session.store last.store := by
  induction requests generalizing session responses with
  | nil =>
    cases responded
    exact .refl
  | cons request rest inductionHypothesis =>
    obtain ⟨response, next, others, one, further, rfl⟩ := respondAll_cons_eq_some.mp responded
    obtain ⟨operations, still⟩ := operates_of_respond present one
    exact operations.trans (inductionHypothesis still further)

/-- The store of a session is well-formed, whatever was requested. -/
theorem wellFormed_of_respondAll {signal : Option Signal} {requests : List Request}
    (responded : (opening signal).respondAll depth requests = some (responses, last)) :
    last.store.WellFormed := by
  have operations := operates_of_respondAll Nat.one_pos responded
  exact (Store.operations_wellFormed (.head .create operations) Store.wellFormed_empty).1

/-! ### Raising the flag between requests -/

/-- What happens to a session. -/
inductive Occurrence where
  | raise
  | request (request : Request)

/-- Lets a session take the requests as they occur. -/
def live (depth : Nat) (session : Session) : List Occurrence → Option (List Response × Session)
  | [] => some ([], session)
  | .raise :: rest => live depth session.raise rest
  | .request request :: rest => do
    let (response, next) ← session.respond depth request
    let (responses, last) ← live depth next rest
    return (response :: responses, last)

/-- The requests alone. -/
def requestsAmong : List Occurrence → List Request
  | [] => []
  | .raise :: rest => requestsAmong rest
  | .request request :: rest => request :: requestsAmong rest

/-- Whether the flag is raised after an occurrence. An input that is evaluated lowers it, and one
that is refused does not. -/
def Occurrence.leavesRaised (raised : Bool) : Occurrence → Bool
  | .raise => true
  | .request (.run source) => raised && !(Program.parse source).diagnostics.isEmpty
  | .request _ => raised

/-- Whether the flag is raised after some occurrences. -/
def flagAfter (raised : Bool) (occurrences : List Occurrence) : Bool :=
  occurrences.foldl Occurrence.leavesRaised raised

/-- The session with a flag that nobody raises while it evaluates. -/
def flagged (session : Session) (raised : Bool) : Session :=
  { session with signal := some (.undisturbed raised) }

/-- An evaluation is the same with a flag, and lowers it. -/
theorem evaluate_flagged (flagless : session.signal = none) (raised : Bool) (depth : Nat)
    (program : Program) :
    (session.evaluate depth program = none ∧
      (session.flagged raised).evaluate depth program = none) ∨
    ∃ completion after, after.signal = none ∧
      session.evaluate depth program = some (completion, after) ∧
      (session.flagged raised).evaluate depth program = some (completion, after.flagged false) := by
  have unsignalled : session.machine = ⟨session.store, none, none⟩ := by
    unfold machine
    rw [flagless]
    rfl
  have signalled : (session.flagged raised).machine = ⟨session.store, some ⟨false, []⟩, none⟩ := rfl
  rw [evaluate_eq, evaluate_eq, unsignalled, signalled]
  obtain ⟨without, lowered⟩ | ⟨completion, store, later, suffix, without, lowered⟩ :=
    Run.compositional_unraised.program program depth session.scope session.store [] nofun
  · exact .inl ⟨Option.map_eq_none_iff.mpr without, Option.map_eq_none_iff.mpr lowered⟩
  · obtain rfl := List.suffix_nil.mp suffix
    exact .inr ⟨completion, ⟨store, session.scope, none⟩, rfl,
      Option.map_eq_some_iff.mpr ⟨_, without, rfl⟩, Option.map_eq_some_iff.mpr ⟨_, lowered, rfl⟩⟩

/-- So is the response to a request. -/
theorem respond_flagged (flagless : session.signal = none) (raised : Bool) (depth : Nat)
    (request : Request) :
    (session.respond depth request = none ∧
      (session.flagged raised).respond depth request = none) ∨
    ∃ response after, after.signal = none ∧
      session.respond depth request = some (response, after) ∧
      (session.flagged raised).respond depth request =
        some (response, after.flagged (Occurrence.leavesRaised raised (.request request))) := by
  cases request with
  | reset => exact .inr ⟨.done, session.reset, flagless, rfl, rfl⟩
  | value name => exact .inr ⟨_, session, flagless, rfl, rfl⟩
  | names stem => exact .inr ⟨_, session, flagless, rfl, rfl⟩
  | run source =>
    by_cases clean : (Program.parse source).diagnostics = []
    · have lowered : Occurrence.leavesRaised raised (.request (.run source)) = false := by
        simp [Occurrence.leavesRaised, clean]
      rw [lowered]
      simp only [respond, run_of_clean _ depth clean]
      obtain ⟨nothing, nothing'⟩ | ⟨completion, after, still, evaluated, evaluated'⟩ :=
        evaluate_flagged flagless raised depth (Program.parse source).program
      · exact .inl ⟨by rw [nothing]; rfl, by rw [nothing']; rfl⟩
      · exact .inr ⟨_, after, still, by rw [evaluated]; rfl, by rw [evaluated']; rfl⟩
    · have kept : Occurrence.leavesRaised raised (.request (.run source)) = raised := by
        simp [Occurrence.leavesRaised, clean]
      rw [kept]
      simp only [respond, run_of_refused _ depth clean]
      exact .inr ⟨_, session, flagless, rfl, rfl⟩

/-- Nobody raises the flag while the session evaluates, if it has one. -/
def Undisturbed (session : Session) : Prop :=
  ∃ flag : Option Bool, session.signal = flag.map .undisturbed

/-- Nobody does so later, and a session has a flag or not for good. -/
theorem undisturbed_of_respond (undisturbed : session.Undisturbed)
    (responded : session.respond depth request = some (response, next)) :
    next.Undisturbed ∧ next.machine.signal = session.machine.signal := by
  obtain ⟨flag, same⟩ := undisturbed
  obtain ⟨store, scope, signal⟩ := session
  obtain rfl : signal = _ := same
  have flagless : (⟨store, scope, none⟩ : Session).signal = none := rfl
  cases flag with
  | none =>
    obtain ⟨nothing, _⟩ | ⟨_, after, still, found, _⟩ :=
      respond_flagged flagless false depth request
    · cases nothing.symm.trans responded
    · cases found.symm.trans responded
      refine ⟨⟨none, still⟩, ?_⟩
      unfold machine
      rw [still]
      rfl
  | some raised =>
    obtain ⟨_, nothing⟩ | ⟨_, after, _, _, found⟩ := respond_flagged flagless raised depth request
    · cases nothing.symm.trans responded
    · cases found.symm.trans responded
      exact ⟨⟨some _, rfl⟩, rfl⟩

/-- Whenever the flag is raised between requests, the responses are those of a session without a
flag, and so is what is left but for the flag. -/
theorem live_flagged (flagless : session.signal = none) (raised : Bool) (depth : Nat)
    (occurrences : List Occurrence) :
    (session.flagged raised).live depth occurrences =
      (session.respondAll depth (requestsAmong occurrences)).map fun (responses, last) =>
        (responses, last.flagged (flagAfter raised occurrences)) := by
  induction occurrences generalizing session raised with
  | nil => rfl
  | cons occurrence rest inductionHypothesis =>
    cases occurrence with
    | raise => exact inductionHypothesis flagless true
    | request request =>
      obtain ⟨nothing, nothing'⟩ | ⟨response, after, still, responded, responded'⟩ :=
        respond_flagged flagless raised depth request
      · simp [live, requestsAmong, respondAll, nothing, nothing']
      · have others := inductionHypothesis still (Occurrence.leavesRaised raised (.request request))
        simp only [live, requestsAmong, respondAll, responded, responded', Option.bind_eq_bind,
          Option.bind_some, others]
        cases after.respondAll depth (requestsAmong rest) <;> rfl

/-- Raising the flag between the requests of a session does not matter: it responds as one that
cannot be interrupted does to the requests alone, and ends with the same bindings. Only the flag
tells: it is lowered by inputs that are evaluated, and nothing else lowers it. -/
theorem raises_between_requests (depth : Nat) (occurrences : List Occurrence) :
    interruptible.live depth occurrences =
      (plain.respondAll depth (requestsAmong occurrences)).map fun (responses, last) =>
        (responses, { last with signal := some (.undisturbed (flagAfter false occurrences)) }) := by
  have flagless : plain.signal = none := rfl
  exact live_flagged flagless false depth occurrences

end Session

end Monkey
