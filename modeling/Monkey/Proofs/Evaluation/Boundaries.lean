/-
This file is about calls as boundaries of returns. A call takes one layer off what
its body returns. That is enough as long as no `return` is given a value which is
itself a returned one, as the blocks of a conditional can come to, or a name that
such a value was bound to: then values carry at most one layer wherever they are,
and what a call comes to is never a returned value.

A returned value that is returned again carries two layers, so the call around it
comes to a returned value, and this ends the statements around the call.
-/

import Monkey.Proofs.Evaluation.Discipline
import Monkey.Proofs.Evaluation.Observation

namespace Monkey

/-! ### Layers -/

/-- Not a returned value. -/
def Value.Arrived (value : Value) : Prop :=
  ∀ inner, value ≠ .returned inner

/-- Not a returned value that was returned again. -/
def Value.ReturnedOnce (value : Value) : Prop :=
  ∀ inner, value ≠ .returned (.returned inner)

theorem Value.Arrived.returnedOnce {value : Value} (arrived : value.Arrived) :
    value.ReturnedOnce :=
  fun inner => arrived (.returned inner)

theorem Value.Arrived.returned {value : Value} (arrived : value.Arrived) :
    (Value.returned value).ReturnedOnce := by
  rintro inner same
  cases same
  exact arrived inner rfl

/-- One layer is what a call takes off. -/
theorem Value.ReturnedOnce.unwrapped {value : Value} (once : value.ReturnedOnce) :
    value.unwrapped.Arrived := by
  intro inner same
  cases value with
  | returned value => exact once inner (congrArg Value.returned same)
  | _ => cases same

/-- The event that a returned value is returned again. -/
def Event.ReturnsAgain (event : Event) : Prop :=
  ∃ inner, event = .leaving (.returned inner)

/-- A journal is kept, and in it no returned value is returned again. -/
def Machine.ReturnsOnce (machine : Machine) : Prop :=
  ∃ events, machine.journal = some events ∧ ∀ event ∈ events, ¬ event.ReturnsAgain

theorem Machine.ReturnsOnce.of_write {machine : Machine} {event : Event}
    (once : (machine.write event).ReturnsOnce) : machine.ReturnsOnce ∧ ¬ event.ReturnsAgain := by
  obtain ⟨events, kept, others⟩ := once
  obtain ⟨earlier, before, rfl⟩ := Option.map_eq_some_iff.mp kept
  obtain ⟨here, there⟩ := List.forall_mem_cons.mp others
  exact ⟨⟨earlier, before, there⟩, here⟩

theorem Machine.ReturnsOnce.of_moves {machine later : Machine} (moves : machine.Moves later)
    (once : later.ReturnsOnce) : machine.ReturnsOnce := by
  cases moves with
  | note | bind => exact once.of_write.1
  | signal | capture | enclose => exact once

/-- As long as no returned value is returned again, values carry at most one layer. -/
def Discipline.returnedOnce : Discipline where
  Good machine value := machine.ReturnsOnce → value.ReturnedOnce
  Open _ _ := True
  Ordered _ := True
  good_later moves good once := good (once.of_moves moves)
  open_later _ _ := trivial
  good_null _ := nofun
  good_boolean _ := nofun
  good_integer _ := nofun
  good_capture _ _ := nofun
  good_returned := by
    intro machine value _ once
    refine Value.Arrived.returned ?_
    rintro inner rfl
    exact once.of_write.2 ⟨inner, rfl⟩
  good_unwrapped good once := (good once).unwrapped.returnedOnce
  open_enclose _ := trivial
  ordered_enclose _ _ := trivial
  ordered_set _ _ := trivial
  ordered_capture _ := trivial

namespace Discipline

/-- A store that binds values of at most one layer, before anything has happened. -/
theorem sound_returnedOnce {store : Store} (binds : store.Binds Value.ReturnedOnce)
    (signal : Option Signal) : returnedOnce.Sound ⟨store, signal, some []⟩ where
  ordered := trivial
  bound := binds.imp fun _ one _ => one
  noted _ kept _ member := by
    cases kept
    cases member

/-- What a call comes to carries no layer. -/
theorem arrived_of_answer {machine : Machine} {value : Value}
    (answer : returnedOnce.Answer machine value) (once : machine.ReturnsOnce) : value.Arrived := by
  obtain ⟨inner, failed | good, rfl⟩ := answer
  · cases inner with
    | error fault => exact nofun
    | _ => cases failed
  · exact (good once).unwrapped

end Discipline

/-! ### Calls and programs -/

namespace Evaluation

/-- What is known of a call in whose journal no returned value is returned again. -/
theorem arrived_of_apply {depth : Nat} {callee : Value} {values : List Value} {store : Store}
    {signal : Option Signal} {result : Value} {final : Machine}
    (recorded : apply (call depth) callee values ⟨store, signal, some []⟩ = some (result, final))
    (once : final.ReturnsOnce) (given : ∀ value ∈ values, Value.ReturnedOnce value)
    (binds : store.Binds Value.ReturnedOnce) :
    result.Arrived ∧ final.store.Binds Value.ReturnedOnce := by
  cases callee with
  | function closure =>
    have called : Discipline.returnedOnce.Good ⟨store, signal, some []⟩ (.function closure) :=
      fun _ => nofun
    obtain ⟨_, sound, answer⟩ := Discipline.keeps_apply (Discipline.callsKeep_call depth) called
      (fun value member _ => given value member) _ .refl
      (Discipline.sound_returnedOnce binds signal) _ _ recorded
    exact ⟨Discipline.arrived_of_answer answer once, sound.bound.imp fun _ good => good once⟩
  | _ =>
    cases recorded
    exact ⟨nofun, binds⟩

/-- A call in which no returned value is returned again comes to no returned value, for arguments of
at most one layer and from every store that binds values of at most one layer. The store stays so.
-/
theorem returns_stop_at_calls (depth : Nat) (callee : Value) {values : List Value} {store : Store}
    {signal : Option Signal} {result : Value} {final : Machine}
    (given : ∀ value ∈ values, Value.ReturnedOnce value) (binds : store.Binds Value.ReturnedOnce)
    (ended : apply (call depth) callee values ⟨store, signal, none⟩ = some (result, final)) :
    ∃ events, apply (call depth) callee values ⟨store, signal, some []⟩ =
        some (result, { final with journal := some events }) ∧
      ((∀ event ∈ events, ¬ event.ReturnsAgain) →
        result.Arrived ∧ final.store.Binds Value.ReturnedOnce) := by
  have observed : Run.Observed Value 0 [] (apply (call depth) callee values) :=
    Run.compositional_observed.apply (Run.compositional_observed.call depth) callee values
  obtain nothing | ⟨value, store', signal', events, found⟩ := observed store signal
  · rw [nothing none] at ended
    cases ended
  · rw [found none] at ended
    cases ended
    have recorded := found (some [])
    simp only [Machine.extended, Option.map_some, List.append_nil] at recorded
    refine ⟨events, recorded, fun once => ?_⟩
    have holds := arrived_of_apply recorded
    exact holds ⟨events, rfl, once⟩ given binds

/-- A call of a function that returns from a block, with an argument that was returned before. -/
theorem returns_stop_at_calls_nested :
    let body : List Statement := [
      .expression (.conditional (.identifier "x") [.returning (some (.integer 1))] none)]
    let callee := Value.function ⟨0, ["x"], body, 0⟩
    let store : Store := ⟨#[⟨[], none⟩], 1⟩
    ∃ final, apply (call 1) callee [.returned (.boolean true)] ⟨store, none, none⟩ =
      some (.integer 1, final) ∧ Value.Arrived (.integer 1) := by
  intro body callee store
  have binds : store.Binds Value.ReturnedOnce := by
    intro scope found present binding member
    match scope with
    | 0 =>
      cases present
      cases member
    | scope + 1 => cases present
  have given : ∀ value ∈ [Value.returned (.boolean true)], value.ReturnedOnce :=
    List.forall_mem_singleton.mpr nofun
  refine ⟨_, rfl, ?_⟩
  obtain ⟨events, recorded, arrived⟩ := returns_stop_at_calls 1 callee given binds
    (rfl : apply (call 1) callee [.returned (.boolean true)] ⟨store, none, none⟩ =
      some (.integer 1, _))
  cases recorded
  refine (arrived ?_).1
  rintro event member ⟨inner, rfl⟩
  simp at member

/-- Programs keep the bindings so, from the first one on, as long as nothing is returned again. -/
theorem binds_returnedOnce_of_run {program : Program} {depth : Nat} {scope : ScopeId}
    {store : Store} {signal : Option Signal} {completion : Completion} {final : Machine}
    (binds : store.Binds Value.ReturnedOnce)
    (ended : program.run depth scope ⟨store, signal, some []⟩ = some (completion, final))
    (once : final.ReturnsOnce) : final.store.Binds Value.ReturnedOnce := by
  obtain ⟨_, still, _⟩ := Discipline.keeps_program program depth trivial _ .refl
    (Discipline.sound_returnedOnce binds signal) _ _ ended
  exact still.bound.imp fun _ good => good once

/-- A value that is returned twice passes the call around it, and so ends the program that calls
the function. -/
theorem doubled_return_passes_call :
    let body : List Statement := [
      .returning (some (.conditional (.boolean true) [.returning (some (.integer 1))] none))]
    let program : Program := ⟨[.binding "f" (.function [] body),
      .expression (.call (.identifier "f") []), .expression (.integer 2)]⟩
    let store := Store.empty.create.2
    (apply (call 1) (.function ⟨0, [], body, 0⟩) [] (.ofStore store)).map Prod.fst =
        some (.returned (.integer 1)) ∧
      (program.run 1 0 (.ofStore store)).map Prod.fst = some (.stopped (.integer 1)) :=
  ⟨rfl, rfl⟩

end Evaluation

end Monkey
