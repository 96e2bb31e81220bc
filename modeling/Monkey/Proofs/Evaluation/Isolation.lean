/-
This file is about what evaluation leaves alone in the store. Evaluating a piece
in a scope changes no other scope that was there before. In the scope itself the
outer scope stays, no name is lost, and only the names that the `let` statements
of the piece bind can be bound to something else. A call changes no scope at
all that was there before it.
-/

import Monkey.Proofs.Evaluation.Steps
import Monkey.Proofs.Scopes

namespace Monkey

/-! ### Scopes with some names bound anew -/

/-- One scope is another with some of the names bound, perhaps not for the first time. -/
structure Scope.Extended (names : List String) (before after : Scope) : Prop where
  outer : after.outer = before.outer
  kept : before.names ⊆ after.names
  others : ∀ name ∉ names, after.find? name = before.find? name

namespace Scope.Extended

variable {names : List String} {before middle after : Scope}

theorem refl : Extended names before before :=
  ⟨rfl, List.Subset.refl _, fun _ _ => rfl⟩

theorem trans (first : Extended names before middle) (second : Extended names middle after) :
    Extended names before after :=
  ⟨second.outer.trans first.outer, List.Subset.trans first.kept second.kept,
    fun name other => (second.others name other).trans (first.others name other)⟩

theorem bind {name : String} (member : name ∈ names) (value : Value) :
    Extended names before (before.bind name value) where
  outer := rfl
  kept := names_subset_bind
  others found other := by
    refine find?_bind_of_ne ?_ value
    rintro rfl
    exact other member

end Scope.Extended

/-! ### Stores with one scope changed -/

/-- A store is what another one becomes by binding some names in one scope. Scopes may have come
in addition. -/
structure Store.Isolated (scope : ScopeId) (names : List String) (before after : Store) : Prop where
  others : ∀ other found, other ≠ scope → before.scopes[other]? = some found →
    after.scopes[other]? = some found
  own : ∀ found, before.scopes[scope]? = some found →
    ∃ changed, after.scopes[scope]? = some changed ∧ found.Extended names changed

/-- Every scope of a store is the same in another one. -/
def Store.Kept (before after : Store) : Prop :=
  ∀ (scope : ScopeId) (found : Scope), before.scopes[scope]? = some found →
    after.scopes[scope]? = some found

namespace Store.Isolated

variable {scope : ScopeId} {names inside : List String} {before middle after : Store}

theorem of_kept (kept : before.Kept after) : before.Isolated scope names after where
  others other found _ present := kept other found present
  own found present := ⟨found, kept scope found present, .refl⟩

theorem trans (first : before.Isolated scope names middle)
    (second : middle.Isolated scope names after) : before.Isolated scope names after where
  others other found different present :=
    second.others other found different (first.others other found different present)
  own found present := by
    obtain ⟨changed, there, extended⟩ := first.own found present
    obtain ⟨last, still, further⟩ := second.own changed there
    exact ⟨last, still, extended.trans further⟩

theorem set {name : String} (member : name ∈ names) (value : Value) :
    before.Isolated scope names (before.set scope name value) where
  others other found different present := by
    rw [getElem?_set_of_ne different]
    exact present
  own found present := by
    refine ⟨found.bind name value, ?_, .bind member value⟩
    rw [getElem?_set_self, present]
    rfl

/-- What is confined to a scope that was just opened leaves everything as it was. -/
theorem kept_of_enclose {outer : ScopeId}
    (isolated : (before.enclose outer).2.Isolated before.scopes.size inside after) :
    before.Kept after := by
  intro scope found present
  have old : scope < before.scopes.size := (Array.getElem?_eq_some_iff.mp present).1
  exact isolated.others scope found (Nat.ne_of_lt old)
    (getElem?_add_of_eq_some present (some outer))

/-- Where no name may be bound in a scope that is not there, nothing changes. -/
theorem kept_of_new (isolated : before.Isolated before.scopes.size names after) :
    before.Kept after := by
  intro scope found present
  have old : scope < before.scopes.size := (Array.getElem?_eq_some_iff.mp present).1
  exact isolated.others scope found (Nat.ne_of_lt old) present

end Store.Isolated

/-! ### Evaluation -/

theorem Steps.isolated {scope : ScopeId} {names : List String} {start final : Machine}
    (steps : Steps scope names start final) :
    start.store.Isolated scope names final.store := by
  induction steps with
  | refl => exact .of_kept fun _ _ present => present
  | note _ _ _ inductionHypothesis => exact inductionHypothesis
  | signal _ _ inductionHypothesis => exact inductionHypothesis
  | capture _ inductionHypothesis =>
    exact inductionHypothesis.trans (.of_kept fun _ _ present => present)
  | bind value member _ inductionHypothesis => exact inductionHypothesis.trans (.set member value)
  | call outer _ _ isolated isolatedWithin =>
    exact isolated.trans (.of_kept isolatedWithin.kept_of_enclose)

/-- Whatever the run comes to, it binds no names but these in the scope, and leaves the others. -/
def Run.Isolates {Result : Type} (scope : ScopeId) (names : List String) (run : Run Result) :
    Prop :=
  ∀ machine result final, run machine = some (result, final) →
    machine.store.Isolated scope names final.store

theorem Run.Takes.isolates {Result : Type} {scope : ScopeId} {names : List String}
    {run : Run Result} (takes : Run.Takes Result scope names run) : run.Isolates scope names :=
  fun machine result final found => (takes machine result final found).isolated

/-- Whatever the run comes to, it leaves every scope as it was. -/
def Run.KeepsScopes {Result : Type} (run : Run Result) : Prop :=
  ∀ machine result final, run machine = some (result, final) → machine.store.Kept final.store

/-- A piece of syntax binds names in its own scope only, and only those of its `let` statements.
A call leaves every scope as it was. -/
theorem evaluation_isolates (depth : Nat) (scope : ScopeId) :
    (∀ program : Program,
        (program.run depth scope).Isolates scope (namesBoundBy program.statements)) ∧
      (∀ latest block, (Evaluation.statements (Evaluation.call depth) scope latest block).Isolates
        scope (namesBoundBy block)) ∧
      (∀ piece, (Evaluation.statement (Evaluation.call depth) scope piece).Isolates
        scope piece.boundNames) ∧
      (∀ piece, (Evaluation.expression (Evaluation.call depth) scope piece).Isolates
        scope piece.boundNames) ∧
      (∀ callee values, (Evaluation.apply (Evaluation.call depth) callee values).KeepsScopes) := by
  have takes := Run.compositional_takes
  have calls : HoldsOfCalls Run.Takes (Evaluation.call depth) := takes.call depth
  refine ⟨fun program => (takes.program program depth scope).isolates,
    fun latest block => (takes.statements calls scope latest block).isolates,
    fun piece => (takes.statement calls scope piece).isolates,
    fun piece => (takes.expression calls scope piece).isolates, ?_⟩
  intro callee values machine result final found
  -- No scope that is there is the one to be opened next, so none is the call's own.
  have steps : Steps machine.store.scopes.size [] machine final :=
    takes.apply calls callee values machine result final found
  exact steps.isolated.kept_of_new

end Monkey
