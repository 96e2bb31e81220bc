/-
This file says that errors never become data. A value is free of errors if it is
none and carries none in any number of layers. If everything bound in a store is
free of errors, then so is everything that a run binds, passes to a function,
takes as an operand or returns, at every moment of the run. An error is only ever
on its way out.

The moments of a run are the machines that its start leads to and that lead to its
end. They are judged by the journal at the end, which names every binding that was
made until then. Since the flag may be raised at any look, a run that does not end
has its moments in those runs in which it is interrupted.
-/

import Monkey.Proofs.Evaluation.Discipline
import Monkey.Proofs.Evaluation.Observation

namespace Monkey

/-! ### Values free of errors -/

/-- Neither an error nor a returned value with one in it. -/
def Value.ErrorFree : Value → Prop
  | .error _ => False
  | .returned value => value.ErrorFree
  | _ => True

theorem Value.ErrorFree.unwrapped {value : Value} (free : value.ErrorFree) :
    value.unwrapped.ErrorFree := by
  cases value <;> exact free

/-- Values free of errors make a discipline. -/
def Discipline.errorFree : Discipline where
  Good _ value := value.ErrorFree
  Open _ _ := True
  Ordered _ := True
  good_later _ free := free
  open_later _ _ := trivial
  good_null := trivial
  good_boolean := trivial
  good_integer := trivial
  good_capture _ := trivial
  good_returned free := free
  good_unwrapped free := free.unwrapped
  open_enclose _ := trivial
  ordered_enclose _ _ := trivial
  ordered_set _ _ := trivial
  ordered_capture _ := trivial

/-! ### Moments -/

namespace Machine

variable {start moment final : Machine} {Holds : Value → Prop}

/-- Nothing is taken back from a journal. -/
theorem suffix_of_leads (leads : moment.Leads final) {events : List Event}
    (kept : final.journal = some events) :
    ∃ earlier, moment.journal = some earlier ∧ earlier <:+ events := by
  induction leads generalizing events with
  | refl => exact ⟨events, kept, List.suffix_rfl⟩
  | tail _ moves inductionHypothesis =>
    cases moves with
    | note | bind =>
      obtain ⟨before, there, rfl⟩ := Option.map_eq_some_iff.mp kept
      obtain ⟨earlier, here, suffix⟩ := inductionHypothesis there
      exact ⟨earlier, here, suffix.trans (List.suffix_cons _ _)⟩
    | signal | capture | enclose => exact inductionHypothesis kept

/-- What is bound at a moment was bound at the start or by an event since. -/
theorem binds_of_leads (leads : start.Leads moment) {events : List Event}
    (kept : moment.journal = some events) (carried : ∀ event ∈ events, event.Carries Holds)
    (binds : start.store.Binds Holds) : moment.store.Binds Holds := by
  induction leads generalizing events with
  | refl => exact binds
  | tail _ moves inductionHypothesis =>
    cases moves with
    | note =>
      obtain ⟨before, there, rfl⟩ := Option.map_eq_some_iff.mp kept
      exact inductionHypothesis there (List.forall_mem_cons.mp carried).2
    | bind scope name value =>
      obtain ⟨before, there, rfl⟩ := Option.map_eq_some_iff.mp kept
      obtain ⟨here, earlier⟩ := List.forall_mem_cons.mp carried
      exact (inductionHypothesis there earlier).set here name
    | signal | capture => exact inductionHypothesis kept carried
    | enclose outer => exact (inductionHypothesis kept carried).enclose outer

end Machine

/-! ### Runs -/

/-- An identifier comes to a value free of errors, or it is bound in no scope in sight. -/
theorem Evaluation.identifier_errorFree {machine : Machine}
    (binds : machine.store.Binds Value.ErrorFree) (calling : Calling) (scope : ScopeId)
    (name : String) :
    ∃ value after, expression calling scope (.identifier name) machine = some (value, after) ∧
      (value.ErrorFree ∨ value = .error (.unbound name) ∧
        ∀ found ∈ machine.store.chain scope, name ∉ found.names) := by
  unfold expression
  cases found : machine.store.get? scope name with
  | some value =>
    have looked : Run.find? scope name (machine.write (.expression (.identifier name))) =
        some (some value, machine.write (.expression (.identifier name))) := by
      rw [Run.find?, ← found]
      rfl
    exact ⟨value, _, (Run.bind_of_eq_some rfl).trans (Run.bind_of_eq_some looked),
      .inl (binds.get? found)⟩
  | none =>
    have looked : Run.find? scope name (machine.write (.expression (.identifier name))) =
        some (none, machine.write (.expression (.identifier name))) := by
      rw [Run.find?, ← found]
      rfl
    refine ⟨_, _, (Run.bind_of_eq_some rfl).trans (Run.bind_of_eq_some looked), .inr ⟨rfl, ?_⟩⟩
    exact fun inner member =>
      Scope.not_mem_names_of_find?_eq_none (List.findSome?_eq_none_iff.mp found inner member)

/-- From a store that binds no errors, everything that happens to values in a run happens to values
free of errors, whatever interrupts it and however it ends, and only its outcome may be an error
itself. At every moment of the run nothing bound has an error in it, and an identifier comes to an
error only if no scope in sight binds it. -/
theorem errors_never_become_data {program : Program} {depth : Nat} {scope : ScopeId} {store : Store}
    {signal : Option Signal} {completion : Completion} {final : Machine}
    (binds : store.Binds Value.ErrorFree)
    (ended : program.run depth scope ⟨store, signal, none⟩ = some (completion, final)) :
    ∃ events, program.run depth scope ⟨store, signal, some []⟩ =
        some (completion, { final with journal := some events }) ∧
      (∀ event ∈ events, event.Carries Value.ErrorFree) ∧
      (completion.value.isError = true ∨ completion.value.ErrorFree) ∧
      Machine.Leads ⟨store, signal, some []⟩ { final with journal := some events } ∧
      ∀ moment, Machine.Leads ⟨store, signal, some []⟩ moment →
        moment.Leads { final with journal := some events } →
          moment.store.Binds Value.ErrorFree ∧
          ∀ calling inner name, ∃ value after,
            Evaluation.expression calling inner (.identifier name) moment = some (value, after) ∧
            (value.ErrorFree ∨ value = .error (.unbound name) ∧
              ∀ found ∈ moment.store.chain inner, name ∉ found.names) := by
  obtain ⟨events, recorded⟩ := program.run_journal depth scope ended
  have sound : Discipline.errorFree.Sound ⟨store, signal, some []⟩ :=
    ⟨trivial, binds, fun _ kept _ member => by cases kept; cases member⟩
  obtain ⟨leads, still, inner, outcome, same⟩ :=
    Discipline.keeps_program program depth trivial _ .refl sound _ _ recorded
  have carried : ∀ event ∈ events, event.Carries Value.ErrorFree := still.noted events rfl
  refine ⟨events, recorded, carried, ?_, leads, fun moment before after => ?_⟩
  · rw [same]
    exact Discipline.outcome_of_answer ⟨inner, outcome, rfl⟩
  -- The journal of a moment is the end of the last one, so it tells of clean bindings only.
  · obtain ⟨earlier, kept, suffix⟩ := Machine.suffix_of_leads after rfl
    have clean : moment.store.Binds Value.ErrorFree := Machine.binds_of_leads before kept
      (fun event member => carried event (suffix.subset member)) binds
    exact ⟨clean, fun calling => Evaluation.identifier_errorFree clean calling⟩

/-- A returned value is bound and passed to a function, and then an error ends the program. -/
theorem errors_never_become_data_layered :
    let program : Program := ⟨[
      .binding "r" (.conditional (.boolean true) [.returning (some (.integer 5))] none),
      .binding "f" (.function ["x"] [.returning (some (.identifier "x"))]),
      .binding "s" (.call (.identifier "f") [.identifier "r"]), .expression (.identifier "t")]⟩
    let store : Store := Store.empty.create.2
    store.Binds Value.ErrorFree ∧ ∃ final,
      program.run 1 0 ⟨store, none, none⟩ = some (.stopped (.error (.unbound "t")), final) ∧
        final.store.get? 0 "s" = some (.returned (.integer 5)) ∧
        final.store.Binds Value.ErrorFree := by
  intro program store
  have binds : store.Binds Value.ErrorFree := by
    intro scope found present binding member
    match scope with
    | 0 =>
      cases present
      cases member
    | scope + 1 => cases present
  have ends : ∃ final,
      program.run 1 0 ⟨store, none, none⟩ = some (.stopped (.error (.unbound "t")), final) ∧
        final.store.get? 0 "s" = some (.returned (.integer 5)) := by
    unfold program store
    exact ⟨_, rfl, rfl⟩
  obtain ⟨final, ended, bound⟩ := ends
  obtain ⟨events, _, _, _, leads, moments⟩ := errors_never_become_data binds ended
  exact ⟨binds, final, ended, bound, (moments _ leads .refl).1⟩

end Monkey
