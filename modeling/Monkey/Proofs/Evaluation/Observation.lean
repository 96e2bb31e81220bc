/-
This file shows that keeping a journal does not change a run. Whether or not the
events are written down, an evaluation comes to the same value and leaves the
same store and the same signal, and the events that it adds are always the same.
So what is known from the journal of a run is known of the run without it.
-/

import Monkey.Proofs.Evaluation.Composition

namespace Monkey

/-- The events come on top of those written down before. -/
def Machine.extended (store : Store) (signal : Option Signal) (journal : Option (List Event))
    (events : List Event) : Machine :=
  ⟨store, signal, journal.map (events ++ ·)⟩

theorem Machine.extended_extended (store : Store) (signal : Option Signal)
    (journal : Option (List Event)) (events later : List Event) :
    extended store signal (journal.map (events ++ ·)) later =
      extended store signal journal (later ++ events) := by
  cases journal with
  | none => rfl
  | some earlier =>
    simp only [extended, Option.map_some, List.append_assoc]

namespace Run

variable {Result Following : Type} {scope : ScopeId} {names : List String}

/-- With any journal, the run comes to the same and adds the same events. -/
def Observed (Result : Type) (_ : ScopeId) (_ : List String) (run : Run Result) : Prop :=
  ∀ store signal, (∀ journal, run ⟨store, signal, journal⟩ = none) ∨
    ∃ result store' signal' events, ∀ journal,
      run ⟨store, signal, journal⟩ = some (result, .extended store' signal' journal events)

theorem observed_pure (value : Result) : Observed Result scope names (pure value) := by
  refine fun store signal => .inr ⟨value, store, signal, [], fun journal => ?_⟩
  cases journal <;> rfl

theorem Observed.bind {first : Run Result} {second : Result → Run Following}
    (observed : Observed Result scope names first)
    (next : ∀ result, Observed Following scope names (second result)) :
    Observed Following scope names (first >>= second) := by
  intro store signal
  obtain nothing | ⟨result, store', signal', events, one⟩ := observed store signal
  · exact .inl fun journal => bind_of_eq_none (nothing journal)
  · obtain nothing | ⟨value, last, left, later, other⟩ := next result store' signal'
    · refine .inl fun journal => ?_
      rw [bind_of_eq_some (one journal)]
      exact nothing _
    · refine .inr ⟨value, last, left, later ++ events, fun journal => ?_⟩
      rw [bind_of_eq_some (one journal), ← Machine.extended_extended]
      exact other _

theorem observed_look : Observed Bool scope names look := by
  intro store signal
  cases signal with
  | none =>
    refine .inr ⟨false, store, none, [], fun journal => ?_⟩
    cases journal <;> rfl
  | some signal => exact .inr ⟨_, _, _, [_], fun journal => rfl⟩

/-- Evaluations do not depend on the journal. -/
theorem compositional_observed : Compositional Observed where
  pure := observed_pure
  bind := .bind
  widen observed _ := observed
  exhausted _ _ := .inl fun _ => rfl
  note event _ _ _ := .inr ⟨(), _, _, [event], fun _ => rfl⟩
  look := observed_look
  fail fault _ _ := .inr ⟨_, _, _, [.failure fault], fun _ => rfl⟩
  find? inner name store signal := by
    refine .inr ⟨store.get? inner name, store, signal, [], fun journal => ?_⟩
    cases journal <;> rfl
  bindName {scope _ name} value _ store signal := .inr
    ⟨(), store.set scope name value, signal, [.binding scope name value], fun _ => rfl⟩
  capture inner parameters body store signal := by
    refine .inr ⟨.function ⟨store.closures, parameters, body, inner⟩, store.countClosure.2, signal,
      [], fun journal => ?_⟩
    cases journal <;> rfl
  enclose _ outer next store signal := by
    obtain nothing | ⟨result, store', signal', events, found⟩ :=
      next store.scopes.size (store.enclose outer).2 signal
    · exact .inl nothing
    · exact .inr ⟨result, store', signal', events, found⟩

end Run

/-- The journal of a program's run holds what happens in the run without a journal. -/
theorem Program.run_journal (program : Program) (depth : Nat) (scope : ScopeId) {store : Store}
    {signal : Option Signal} {completion : Completion} {final : Machine}
    (ended : program.run depth scope ⟨store, signal, none⟩ = some (completion, final)) :
    ∃ events, program.run depth scope ⟨store, signal, some []⟩ =
      some (completion, { final with journal := some events }) := by
  obtain nothing | ⟨result, store', signal', events, found⟩ :=
    Run.compositional_observed.program program depth scope store signal
  · rw [nothing none] at ended
    cases ended
  · rw [found none] at ended
    cases ended
    refine ⟨events, ?_⟩
    rw [found (some [])]
    simp only [Machine.extended, Option.map_some, List.append_nil]

end Monkey
