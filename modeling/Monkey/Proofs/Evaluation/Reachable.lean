/-
This file is about all stores that there can be. A store starts out empty. Scopes
are added to it, functions are made, and values are bound whose functions were
made by then. Evaluation does nothing else: whatever program or call is evaluated
in such a store, and however it ends, the store that it leaves is one of them.

In all of them a scope lies in an older one, and every function that is bound
anywhere was made before, in a scope that is there.
-/

import Monkey.Proofs.Evaluation.Links

namespace Monkey

namespace Store

variable {store later : Store} {value : Value}

/-- The functions in a value were made, in scopes that are there. -/
def Made (store : Store) (value : Value) : Prop :=
  ∀ closure ∈ value.closure?, closure.scope < store.scopes.size ∧
    closure.identity < store.closures

/-- A store that scopes, functions and bindings can lead to. -/
inductive Reachable : Store → Prop where
  | empty : Reachable .empty
  | create {store : Store} (before : Reachable store) : Reachable store.create.2
  | enclose {store : Store} {outer : ScopeId} (before : Reachable store)
      (present : outer < store.scopes.size) : Reachable (store.enclose outer).2
  | capture {store : Store} (before : Reachable store) : Reachable store.countClosure.2
  | set {store : Store} {value : Value} (scope : ScopeId) (name : String)
      (before : Reachable store) (made : store.Made value) : Reachable (store.set scope name value)

/-- Neither scopes nor functions have become fewer. -/
structure Grows (before after : Store) : Prop where
  scopes : before.scopes.size ≤ after.scopes.size
  closures : before.closures ≤ after.closures

theorem Grows.refl : store.Grows store :=
  ⟨Nat.le_refl _, Nat.le_refl _⟩

theorem Grows.trans {first middle last : Store} (one : first.Grows middle)
    (other : middle.Grows last) : first.Grows last :=
  ⟨Nat.le_trans one.scopes other.scopes, Nat.le_trans one.closures other.closures⟩

theorem Made.grow (made : store.Made value) (grows : store.Grows later) : later.Made value :=
  fun closure member => ⟨Nat.lt_of_lt_of_le (made closure member).1 grows.scopes,
    Nat.lt_of_lt_of_le (made closure member).2 grows.closures⟩

/-- Nothing had to be made for a value without functions. -/
theorem made_of_plain (plain : value.closure? = none) : store.Made value := by
  intro closure member
  rw [plain] at member
  cases member

theorem grows_add (outer : Option ScopeId) : store.Grows (store.add outer).2 :=
  ⟨by rw [size_add]; exact Nat.le_succ _, Nat.le_refl _⟩

theorem grows_capture : store.Grows store.countClosure.2 :=
  ⟨Nat.le_refl _, Nat.le_succ _⟩

theorem grows_set (scope : ScopeId) (name : String) (value : Value) :
    store.Grows (store.set scope name value) :=
  ⟨Nat.le_of_eq (size_set name value).symm, Nat.le_refl _⟩

theorem Grows.of_moves {machine next : Machine} (moves : machine.Moves next) :
    machine.store.Grows next.store := by
  cases moves with
  | note | signal => exact .refl
  | capture => exact grows_capture
  | bind scope name value => exact grows_set scope name value
  | enclose outer => exact grows_add (some outer)

/-- A scope that is there stays there. -/
theorem present_of_moves {machine next : Machine} {scope : ScopeId} (moves : machine.Moves next)
    (present : scope < machine.store.scopes.size) : scope < next.store.scopes.size :=
  Nat.lt_of_lt_of_le present (Grows.of_moves moves).scopes

theorem Grows.of_leads {start final : Machine} (leads : start.Leads final) :
    start.store.Grows final.store := by
  induction leads with
  | refl => exact .refl
  | tail _ moves inductionHypothesis => exact inductionHypothesis.trans (.of_moves moves)

/-! ### What holds of them -/

namespace Reachable

theorem ordered (reachable : store.Reachable) : store.Ordered := by
  induction reachable with
  | empty => exact fun _ _ _ there => nomatch there
  | create _ inductionHypothesis => exact inductionHypothesis.add nofun
  | enclose _ present inductionHypothesis =>
    refine inductionHypothesis.add fun place same => ?_
    cases same
    exact present
  | capture _ inductionHypothesis => exact inductionHypothesis
  | set _ name _ _ inductionHypothesis => exact inductionHypothesis.set name _

theorem binds (reachable : store.Reachable) : store.Binds store.Made := by
  induction reachable with
  | empty => exact fun _ _ there => nomatch there
  | create _ inductionHypothesis =>
    exact (inductionHypothesis.add none).imp fun _ made => made.grow (grows_add none)
  | @enclose _ outer _ _ inductionHypothesis =>
    exact (inductionHypothesis.enclose outer).imp fun _ made => made.grow (grows_add (some outer))
  | @capture store _ inductionHypothesis =>
    have same : store.countClosure.2.Binds store.Made := inductionHypothesis
    exact same.imp fun _ made => made.grow grows_capture
  | set scope name _ made inductionHypothesis =>
    exact (inductionHypothesis.set made name).imp fun _ one => one.grow (grows_set scope name _)

end Reachable

end Store

/-! ### Evaluation -/

/-- Values whose functions were made make a discipline. -/
def Discipline.made : Discipline where
  Good machine value := machine.store.Made value
  Open machine scope := scope < machine.store.scopes.size
  Ordered := Store.Reachable
  good_later moves made := made.grow (.of_moves moves)
  open_later moves present := Store.present_of_moves moves present
  good_null := Store.made_of_plain rfl
  good_boolean := Store.made_of_plain rfl
  good_integer := Store.made_of_plain rfl
  good_capture present closure same := by
    cases same
    exact ⟨present, Nat.lt_succ_self _⟩
  good_returned made := made
  good_unwrapped := by
    intro machine value made
    cases value <;> exact made
  open_enclose _ := Nat.lt_of_lt_of_eq (Nat.lt_succ_self _) (Store.size_enclose _).symm
  ordered_enclose reachable made := .enclose reachable (made _ rfl).1
  ordered_set reachable made := .set _ _ reachable made
  ordered_capture reachable := .capture reachable

namespace Discipline

variable {machine : Machine} {value : Value}

theorem sound_made {store : Store} (reachable : store.Reachable) (signal : Option Signal) :
    made.Sound ⟨store, signal, none⟩ :=
  ⟨reachable, reachable.binds, nofun⟩

/-- There is no function in an error. -/
theorem made_of_answer (answer : made.Answer machine value) : machine.store.Made value := by
  obtain failed | good := outcome_of_answer answer
  · cases value with
    | error fault => exact Store.made_of_plain rfl
    | _ => cases failed
  · exact good

end Discipline

namespace Store.Reachable

variable {store : Store} {signal : Option Signal} {final : Machine}

/-- A program leaves a reachable store, and comes to a value made there. -/
theorem run (reachable : store.Reachable) {program : Program} {depth : Nat} {scope : ScopeId}
    {completion : Completion} (present : scope < store.scopes.size)
    (ended : program.run depth scope ⟨store, signal, none⟩ = some (completion, final)) :
    final.store.Reachable ∧ final.store.Made completion.value := by
  obtain ⟨_, sound, answer⟩ := Discipline.keeps_program program depth present _ .refl
    (Discipline.sound_made reachable signal) _ _ ended
  exact ⟨sound.ordered, Discipline.made_of_answer answer⟩

/-- So does a call of a function that was made, with arguments that were. -/
theorem apply (reachable : store.Reachable) {depth : Nat} {callee value : Value}
    {values : List Value} (called : store.Made callee) (given : ∀ value ∈ values, store.Made value)
    (ended : Evaluation.apply (Evaluation.call depth) callee values ⟨store, signal, none⟩ =
      some (value, final)) :
    final.store.Reachable ∧ final.store.Made value ∧ store.Grows final.store := by
  have called : Discipline.made.Good ⟨store, signal, none⟩ callee := called
  obtain ⟨leads, sound, answer⟩ := Discipline.keeps_apply (Discipline.callsKeep_call depth) called
    given _ .refl (Discipline.sound_made reachable signal) _ _ ended
  exact ⟨sound.ordered, Discipline.made_of_answer answer, .of_leads leads⟩

end Store.Reachable

end Monkey
