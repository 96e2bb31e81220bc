/-
This file shows that an error can be neither caught nor overtaken. As soon as an
error is made nothing else happens: it is the last event of the run, and the only
error in it, and the program is stopped by it. The bindings made before stay.
-/

import Monkey.Proofs.Evaluation.Observation
import Monkey.Proofs.Evaluation.Raising
import Monkey.Proofs.Evaluation.Recording

namespace Monkey

/-- A program comes to the same if its errors are raised. In the journal of its run an error is
preceded by everything else, stops the program, and leaves all bindings that were made. -/
theorem errors_end_runs {program : Program} {depth : Nat} {scope : ScopeId} {store : Store}
    {signal : Option Signal} {completion : Completion} {final : Machine}
    (present : scope < store.scopes.size)
    (ended : program.run depth scope ⟨store, signal, none⟩ = some (completion, final)) :
    program.runRaising depth scope ⟨store, signal, none⟩ = some (completion, final) ∧
      ∃ events, program.run depth scope ⟨store, signal, some []⟩ =
          some (completion, { final with journal := some events }) ∧
        (∀ inner name, final.store.own? inner name =
          (latestBinding inner name events).or (store.own? inner name)) ∧
        ∀ fault, .failure fault ∈ events → completion = .stopped (.error fault) ∧
          ∃ older, events = .failure fault :: older ∧ ∀ other, .failure other ∉ older := by
  have unobserved := Machine.unfailing_unobserved store signal
  have unfailing := Machine.unfailing_start store signal
  obtain ⟨events, observed⟩ := program.run_journal depth scope ended
  refine ⟨?_, events, observed, ?_, ?_⟩
  · rw [← (program.agrees_run depth scope unobserved).1]
    exact ended
  · have steps := Run.compositional_takes.program program depth scope _ _ _ observed
    obtain ⟨added, kept, bindings⟩ := steps.recorded present [] rfl
    rw [List.append_nil, Option.some.injEq] at kept
    rw [kept]
    exact bindings
  · intro fault member
    obtain still | ⟨other, moment, before, rfl, written⟩ :=
      (program.agrees_run depth scope unfailing).2 _ _ observed
    · exact absurd member (still events rfl fault)
    · have kept : moment.journal.map (.failure other :: ·) = some events :=
        (congrArg Machine.journal written).symm
      obtain ⟨older, earlier, rfl⟩ := Option.map_eq_some_iff.mp kept
      obtain same | member := List.mem_cons.mp member
      · cases same
        exact ⟨rfl, older, rfl, before older earlier⟩
      · exact absurd member (before older earlier fault)

/-- A name that is not bound, between two bindings of another one. -/
theorem errors_end_runs_unbound :
    let program : Program := ⟨[.binding "a" (.integer 1), .expression (.identifier "b"),
      .binding "a" (.integer 2)]⟩
    let start : Store := ⟨#[⟨[], none⟩], 0⟩
    let final : Store := ⟨#[⟨[("a", .integer 1)], none⟩], 0⟩
    let completion : Completion := .stopped (.error (.unbound "b"))
    0 < start.scopes.size ∧
      program.run 0 0 ⟨start, none, none⟩ = some (completion, ⟨final, none, none⟩) ∧
      program.runRaising 0 0 ⟨start, none, none⟩ = some (completion, ⟨final, none, none⟩) ∧
      ∃ events, program.run 0 0 ⟨start, none, some []⟩ =
          some (completion, ⟨final, none, some events⟩) ∧
        (∀ inner name, final.own? inner name =
          (latestBinding inner name events).or (start.own? inner name)) ∧
        ∀ fault, .failure fault ∈ events → completion = .stopped (.error fault) ∧
          ∃ older, events = .failure fault :: older ∧ ∀ other, .failure other ∉ older := by
  intro program start final completion
  have present : 0 < start.scopes.size := by decide
  have ended : program.run 0 0 ⟨start, none, none⟩ = some (completion, ⟨final, none, none⟩) := rfl
  exact ⟨present, ended, errors_end_runs present ended⟩

end Monkey
