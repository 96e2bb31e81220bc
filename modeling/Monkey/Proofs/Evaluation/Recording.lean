/-
This file reads the bindings of a run off its journal. What a name is bound to in
a scope after a run is what the journal says it was bound to there last, and what
it was bound to before if the journal does not say. So no binding is ever taken
back, however the run ends.
-/

import Monkey.Proofs.Evaluation.Steps
import Monkey.Proofs.Scopes

namespace Monkey

/-! ### Bindings in journals and stores -/

/-- The value of an event that binds the name in the scope. -/
def Event.bound? (scope : ScopeId) (name : String) : Event → Option Value
  | binding inner other value => if inner = scope ∧ other = name then some value else none
  | _ => none

/-- What the name was last bound to in the scope by some events, the latest of which is first. -/
def latestBinding (scope : ScopeId) (name : String) (events : List Event) : Option Value :=
  events.findSome? (Event.bound? scope name)

/-- What the name is bound to in the scope itself, regardless of the scopes around it. -/
def Store.own? (store : Store) (scope : ScopeId) (name : String) : Option Value :=
  store.scopes[scope]?.bind fun found => found.find? name

theorem Event.bound?_of_other {event : Event} (other : event.isBinding = false) (scope : ScopeId)
    (name : String) : event.bound? scope name = none := by
  cases event with
  | binding => cases other
  | _ => rfl

/-- A scope that is added binds nothing yet. -/
theorem Store.own?_add (store : Store) (outer : Option ScopeId) (scope : ScopeId) (name : String) :
    (store.add outer).2.own? scope name = store.own? scope name := by
  unfold own?
  by_cases new : scope = store.scopes.size
  · have nothing : store.scopes[scope]? = none := Array.getElem?_eq_none (Nat.le_of_eq new.symm)
    have opened : (store.add outer).2.scopes[scope]? = some ⟨[], outer⟩ := by
      show (store.scopes.push _)[scope]? = _
      rw [Array.getElem?_push, if_pos new]
    rw [nothing, opened]
    rfl
  · have same : (store.add outer).2.scopes[scope]? = store.scopes[scope]? := by
      show (store.scopes.push _)[scope]? = _
      rw [Array.getElem?_push, if_neg new]
    rw [same]

theorem Store.own?_enclose (store : Store) (outer scope : ScopeId) (name : String) :
    (store.enclose outer).2.own? scope name = store.own? scope name :=
  store.own?_add (some outer) scope name

theorem Store.own?_set {store : Store} {inner : ScopeId} (present : inner < store.scopes.size)
    (bound : String) (value : Value) (scope : ScopeId) (name : String) :
    (store.set inner bound value).own? scope name =
      if inner = scope ∧ bound = name then some value else store.own? scope name := by
  unfold own?
  by_cases here : inner = scope
  · subst here
    rw [getElem?_set_self, Array.getElem?_eq_getElem present]
    simp only [Option.map_some, Option.bind_some]
    by_cases same : bound = name
    · subst same
      rw [Scope.find?_bind_self, if_pos ⟨trivial, rfl⟩]
    · rw [if_neg fun both => same both.2, Scope.find?_bind_of_ne (Ne.symm same)]
  · rw [if_neg fun both => here both.1, getElem?_set_of_ne (Ne.symm here)]

/-! ### Steps -/

theorem Steps.size_le {scope : ScopeId} {names : List String} {start final : Machine}
    (steps : Steps scope names start final) :
    start.store.scopes.size ≤ final.store.scopes.size := by
  induction steps with
  | refl => exact Nat.le_refl _
  | note _ _ _ inductionHypothesis => exact inductionHypothesis
  | signal _ _ inductionHypothesis => exact inductionHypothesis
  | capture _ inductionHypothesis => exact inductionHypothesis
  | bind _ _ _ inductionHypothesis =>
    exact Nat.le_trans inductionHypothesis (Nat.le_of_eq (Store.size_set _ _).symm)
  | call outer _ _ inductionHypothesis sizeWithin =>
    rw [Store.size_enclose] at sizeWithin
    exact Nat.le_trans inductionHypothesis (Nat.le_of_succ_le sizeWithin)

/-- The events that were added to a journal say how the bindings have changed. -/
def Machine.Recorded (start final : Machine) : Prop :=
  ∀ earlier, start.journal = some earlier → ∃ events, final.journal = some (events ++ earlier) ∧
    ∀ scope name, final.store.own? scope name =
      (latestBinding scope name events).or (start.store.own? scope name)

/-- Steps in a scope that is there record all bindings. -/
theorem Steps.recorded {scope : ScopeId} {names : List String} {start final : Machine}
    (steps : Steps scope names start final) (present : scope < start.store.scopes.size) :
    start.Recorded final := by
  induction steps with
  | refl => exact fun earlier kept => ⟨[], kept, fun _ _ => rfl⟩
  | note event other _ inductionHypothesis =>
    intro earlier kept
    obtain ⟨events, written, bindings⟩ := inductionHypothesis present earlier kept
    refine ⟨event :: events, by simp only [Machine.write, written]; rfl, fun inner name => ?_⟩
    unfold latestBinding
    rw [List.findSome?_cons, Event.bound?_of_other other]
    exact bindings inner name
  | signal _ _ inductionHypothesis => exact inductionHypothesis present
  | capture _ inductionHypothesis => exact inductionHypothesis present
  | @bind scope _ _ machine name value _ before inductionHypothesis =>
    intro earlier kept
    obtain ⟨events, written, bindings⟩ := inductionHypothesis present earlier kept
    refine ⟨.binding scope name value :: events, by simp only [Machine.write, written]; rfl, ?_⟩
    intro inner other
    have there : scope < machine.store.scopes.size := Nat.lt_of_lt_of_le present before.size_le
    show (machine.store.set scope name value).own? inner other = _
    rw [Store.own?_set there, bindings]
    unfold latestBinding
    rw [List.findSome?_cons]
    simp only [Event.bound?]
    split <;> rfl
  | @call _ _ _ _ machine _ outer before within inductionHypothesis recordedWithin =>
    intro earlier kept
    obtain ⟨events, written, bindings⟩ := inductionHypothesis present earlier kept
    have opened : machine.store.scopes.size < (machine.store.enclose outer).2.scopes.size := by
      rw [Store.size_enclose]
      exact Nat.lt_succ_self _
    -- The new scope binds nothing yet, so the call starts from the bindings before it.
    obtain ⟨later, last, further⟩ := recordedWithin opened _ written
    refine ⟨later ++ events, by rw [last, List.append_assoc], fun inner name => ?_⟩
    rw [further, Store.own?_enclose, bindings]
    unfold latestBinding
    rw [List.findSome?_append, Option.or_assoc]

end Monkey
