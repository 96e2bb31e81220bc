/-
This file says what an evaluation can do to the machine. It writes down events,
takes signals, counts closures and binds names in its own scope, and these names
are bound by its `let` statements. A call opens a scope and does the same there,
whatever the names.

What evaluation leaves alone is shown by induction on these steps.
-/

import Monkey.Proofs.Evaluation.Composition

namespace Monkey

/-! ### Steps -/

/-- `Steps scope names start machine` are steps from one machine to another that bind no names but
these in the scope. -/
inductive Steps : ScopeId → List String → Machine → Machine → Prop where
  | refl {scope : ScopeId} {names : List String} {start : Machine} : Steps scope names start start
  | note {scope : ScopeId} {names : List String} {start machine : Machine} (event : Event)
      (other : event.isBinding = false) (before : Steps scope names start machine) :
    Steps scope names start (machine.write event)
  | signal {scope : ScopeId} {names : List String} {start machine : Machine}
      (signal : Option Signal) (before : Steps scope names start machine) :
    Steps scope names start { machine with signal }
  | capture {scope : ScopeId} {names : List String} {start machine : Machine}
      (before : Steps scope names start machine) :
    Steps scope names start { machine with store := machine.store.countClosure.2 }
  | bind {scope : ScopeId} {names : List String} {start machine : Machine} {name : String}
      (value : Value) (member : name ∈ names) (before : Steps scope names start machine) :
    Steps scope names start
      ({ machine with store := machine.store.set scope name value }.write
        (.binding scope name value))
  | call {scope : ScopeId} {names inside : List String} {start machine final : Machine}
      (outer : ScopeId) (before : Steps scope names start machine)
      (within : Steps machine.store.scopes.size inside
        { machine with store := (machine.store.enclose outer).2 } final) :
    Steps scope names start final

namespace Steps

variable {scope : ScopeId} {names : List String} {start middle final : Machine}

theorem trans (first : Steps scope names start middle) (second : Steps scope names middle final) :
    Steps scope names start final := by
  induction second with
  | refl => exact first
  | note event other _ inductionHypothesis => exact .note event other (inductionHypothesis first)
  | signal signal _ inductionHypothesis => exact .signal signal (inductionHypothesis first)
  | capture _ inductionHypothesis => exact .capture (inductionHypothesis first)
  | bind value member _ inductionHypothesis => exact .bind value member (inductionHypothesis first)
  | call outer _ within inductionHypothesis _ => exact .call outer (inductionHypothesis first) within

theorem widen {wider : List String} (steps : Steps scope names start final)
    (subset : names ⊆ wider) : Steps scope wider start final := by
  induction steps with
  | refl => exact .refl
  | note event other _ inductionHypothesis => exact .note event other (inductionHypothesis subset)
  | signal signal _ inductionHypothesis => exact .signal signal (inductionHypothesis subset)
  | capture _ inductionHypothesis => exact .capture (inductionHypothesis subset)
  | bind value member _ inductionHypothesis =>
    exact .bind value (subset member) (inductionHypothesis subset)
  | call outer _ within inductionHypothesis _ => exact .call outer (inductionHypothesis subset) within

end Steps

/-! ### Runs -/

/-- Whatever the run comes to, it gets there by steps that bind no names but these in the scope. -/
def Run.Takes (Result : Type) (scope : ScopeId) (names : List String) (run : Run Result) : Prop :=
  ∀ machine result final, run machine = some (result, final) → Steps scope names machine final

/-- Evaluations take steps. -/
theorem Run.compositional_takes : Compositional Run.Takes where
  pure value machine result final found := by
    cases found
    exact .refl
  bind takes next machine value final found := by
    obtain ⟨result, middle, one, other⟩ := bind_eq_some.mp found
    exact (takes _ _ _ one).trans (next _ _ _ _ other)
  widen takes subset machine result final found := (takes machine result final found).widen subset
  exhausted machine result final found := by cases found
  note event other machine result final found := by
    cases found
    exact .note event other .refl
  look machine result final found := by
    unfold look at found
    split at found
    · cases found
      exact .refl
    · cases found
      exact .note _ rfl (.signal _ .refl)
  fail fault machine result final found := by
    cases found
    exact .note _ rfl .refl
  find? inner name machine result final found := by
    cases found
    exact .refl
  bindName value member machine result final found := by
    cases found
    exact .bind value member .refl
  capture inner parameters body machine result final found := by
    cases found
    exact .capture .refl
  enclose _ outer next machine value final found := by
    obtain ⟨inner, middle, one, other⟩ := bind_eq_some.mp found
    cases one
    exact .call outer .refl (next _ _ _ _ other)

end Monkey
