/-
This file is about what holds of all values at every point of a run. Values are
bound, passed as arguments, returned, and taken by operators; a discipline is a
property of values that each of these steps keeps. It may depend on the machine,
as long as a value that has the property does not lose it later.

In a machine that follows the discipline every bound value has the property, and
every value in the journal had it. An evaluation keeps to the discipline and comes
to a value with the property or to an error: a discipline is a lawful conduct, in
which nothing is kept in mind but the machine.
-/

import Monkey.Proofs.Evaluation.Conduct
import Monkey.Proofs.Scopes
import Mathlib.Logic.Relation

namespace Monkey

/-! ### Moments of a run -/

namespace Machine

/-- The least that can happen to a machine. -/
inductive Moves : Machine → Machine → Prop where
  | note {machine : Machine} (event : Event) (other : event.isBinding = false) :
    Moves machine (machine.write event)
  | signal {machine : Machine} (signal : Option Signal) : Moves machine { machine with signal }
  | capture {machine : Machine} :
    Moves machine { machine with store := machine.store.countClosure.2 }
  | bind {machine : Machine} (scope : ScopeId) (name : String) (value : Value) :
    Moves machine ({ machine with store := machine.store.set scope name value }.write
      (.binding scope name value))
  | enclose {machine : Machine} (outer : ScopeId) :
    Moves machine { machine with store := (machine.store.enclose outer).2 }

/-- A run can go from the one machine to the other. -/
abbrev Leads : Machine → Machine → Prop :=
  Relation.ReflTransGen Moves

end Machine

/-! ### Disciplines -/

/-- A property of values that evaluation keeps to. -/
structure Discipline where
  Good : Machine → Value → Prop
  /-- The scope may be used. -/
  Open : Machine → ScopeId → Prop
  /-- The scopes lie in each other as they should. -/
  Ordered : Store → Prop
  good_later : ∀ {machine later value}, machine.Moves later → Good machine value → Good later value
  open_later : ∀ {machine later scope}, machine.Moves later → Open machine scope → Open later scope
  good_null : ∀ {machine}, Good machine .null
  good_boolean : ∀ {machine truth}, Good machine (.boolean truth)
  good_integer : ∀ {machine number}, Good machine (.integer number)
  /-- A function that is made has the property. -/
  good_capture : ∀ {machine scope parameters body}, Open machine scope →
    Good { machine with store := machine.store.countClosure.2 }
      (.function ⟨machine.store.closures, parameters, body, scope⟩)
  good_returned : ∀ {machine value}, Good machine value →
    Good (machine.write (.leaving value)) (.returned value)
  good_unwrapped : ∀ {machine value}, Good machine value → Good machine value.unwrapped
  /-- A function can be called. -/
  open_enclose : ∀ {machine closure}, Good machine (.function closure) →
    Open { machine with store := (machine.store.enclose closure.scope).2 } machine.store.scopes.size
  ordered_enclose : ∀ {machine closure}, Ordered machine.store → Good machine (.function closure) →
    Ordered (machine.store.enclose closure.scope).2
  ordered_set : ∀ {machine scope name value}, Ordered machine.store → Good machine value →
    Ordered (machine.store.set scope name value)
  ordered_capture : ∀ {store}, Ordered store → Ordered store.countClosure.2

namespace Discipline

variable {discipline : Discipline} {start machine later final : Machine} {value : Value}
  {scope : ScopeId} {Result Following : Type}

/-- What is bound or was written down has the property. -/
structure Sound (discipline : Discipline) (machine : Machine) : Prop where
  ordered : discipline.Ordered machine.store
  bound : machine.store.Binds (discipline.Good machine)
  noted : ∀ events ∈ machine.journal, ∀ event ∈ events, event.Carries (discipline.Good machine)

theorem good_of_leads (leads : start.Leads later) (good : discipline.Good start value) :
    discipline.Good later value := by
  induction leads with
  | refl => exact good
  | tail _ moves inductionHypothesis => exact discipline.good_later moves inductionHypothesis

theorem open_of_leads (leads : start.Leads later) (opened : discipline.Open start scope) :
    discipline.Open later scope := by
  induction leads with
  | refl => exact opened
  | tail _ moves inductionHypothesis => exact discipline.open_later moves inductionHypothesis

namespace Sound

/-- A move keeps to the discipline if the new store does and the journal stays. -/
theorem moved (sound : discipline.Sound machine) (moves : machine.Moves later)
    (ordered : discipline.Ordered later.store)
    (bound : later.store.Binds (discipline.Good machine))
    (kept : later.journal = machine.journal) : discipline.Sound later where
  ordered := ordered
  bound := bound.imp fun _ => discipline.good_later moves
  noted events member event inside :=
    (sound.noted events (kept ▸ member) event inside).imp fun _ => discipline.good_later moves

/-- So does one that writes an event down. -/
theorem written (sound : discipline.Sound machine) (event : Event) (moves : machine.Moves later)
    (ordered : discipline.Ordered later.store)
    (bound : later.store.Binds (discipline.Good machine))
    (carries : event.Carries (discipline.Good machine))
    (kept : later.journal = machine.journal.map (event :: ·)) : discipline.Sound later where
  ordered := ordered
  bound := bound.imp fun _ => discipline.good_later moves
  noted := by
    intro events member other inside
    obtain ⟨earlier, before, rfl⟩ := Option.map_eq_some_iff.mp (kept ▸ member)
    obtain rfl | inside := List.mem_cons.mp inside
    · exact carries.imp fun _ => discipline.good_later moves
    · exact (sound.noted earlier before other inside).imp fun _ => discipline.good_later moves

end Sound

/-! ### Single steps -/

/-- From wherever the machine has got to, the run keeps to the discipline, and what it comes to has
the property. -/
def Keeps (discipline : Discipline) (start : Machine) (Holds : Machine → Result → Prop)
    (run : Run Result) : Prop :=
  ∀ machine, start.Leads machine → discipline.Sound machine → ∀ result final,
    run machine = some (result, final) →
      machine.Leads final ∧ discipline.Sound final ∧ Holds final result

theorem keeps_note {event : Event} (other : event.isBinding = false)
    (carries : event.Carries (discipline.Good start)) :
    discipline.Keeps start (fun _ _ => True) (Run.note event) := by
  intro machine leads sound _ final found
  cases found
  have moves : machine.Moves (machine.write event) := .note event other
  exact ⟨.single moves, sound.written event moves sound.ordered sound.bound
    (carries.imp fun _ => good_of_leads leads) rfl, trivial⟩

/-- What is returned was written down. -/
theorem keeps_leaving (good : discipline.Good start value) :
    discipline.Keeps start (fun later _ => discipline.Good later (.returned value))
      (Run.note (.leaving value)) := by
  intro machine leads sound _ final found
  have carries : (Event.leaving value).Carries (discipline.Good start) := good
  obtain ⟨further, still, _⟩ := keeps_note rfl carries machine leads sound _ final found
  cases found
  exact ⟨further, still, discipline.good_returned (good_of_leads leads good)⟩

theorem keeps_fail (fault : Fault) :
    discipline.Keeps start (fun _ value => value = .error fault) (Run.fail fault) := by
  intro machine leads sound _ final found
  cases found
  have moves : machine.Moves (machine.write (.failure fault)) := .note _ rfl
  exact ⟨.single moves, sound.written (.failure fault) moves sound.ordered sound.bound trivial rfl,
    rfl⟩

theorem keeps_look : discipline.Keeps start (fun _ _ => True) Run.look := by
  intro machine leads sound raised final found
  unfold Run.look at found
  split at found
  · cases found
    exact ⟨.refl, sound, trivial⟩
  · rename_i signal _
    cases found
    have moves : machine.Moves { machine with signal := some ⟨false, signal.arrivals.tail⟩ } :=
      .signal _
    have lowered := sound.moved moves sound.ordered sound.bound rfl
    refine ⟨.tail (.single moves) (.note _ rfl), ?_, trivial⟩
    exact lowered.written (.look _) (.note _ rfl) lowered.ordered lowered.bound trivial rfl

theorem keeps_find? (name : String) :
    discipline.Keeps start (fun later found => ∀ value ∈ found, discipline.Good later value)
      (Run.find? scope name) := by
  intro machine leads sound _ final found
  cases found
  exact ⟨.refl, sound, fun value there => sound.bound.get? there⟩

theorem keeps_bindName (name : String) (good : discipline.Good start value) :
    discipline.Keeps start (fun _ _ => True) (Run.bindName scope name value) := by
  intro machine leads sound _ final found
  cases found
  have here := good_of_leads leads good
  exact ⟨.single (.bind scope name value), sound.written (.binding scope name value)
    (.bind scope name value) (discipline.ordered_set sound.ordered here)
    (sound.bound.set here name) here rfl, trivial⟩

theorem keeps_enclose {closure : Closure} (good : discipline.Good start (.function closure)) :
    discipline.Keeps start discipline.Open (Run.enclose closure.scope) := by
  intro machine leads sound _ final found
  cases found
  have here := good_of_leads leads good
  exact ⟨.single (.enclose closure.scope), sound.moved (.enclose closure.scope)
    (discipline.ordered_enclose sound.ordered here) (sound.bound.enclose closure.scope) rfl,
    discipline.open_enclose here⟩

theorem keeps_literal (opened : discipline.Open start scope) (parameters : List String)
    (body : List Statement) :
    discipline.Keeps start discipline.Good (do
      Run.note (.expression (.function parameters body))
      Run.capture scope parameters body) := by
  intro machine leads sound _ final found
  cases found
  have moves : machine.Moves (machine.write (.expression (.function parameters body))) :=
    .note _ rfl
  have noted := sound.written (.expression (.function parameters body)) moves sound.ordered
    sound.bound trivial rfl
  have onward : machine.Leads { machine with
      store := machine.store.countClosure.2
      journal := machine.journal.map (.expression (.function parameters body) :: ·) } :=
    .tail (.single moves) .capture
  exact ⟨onward, noted.moved .capture (discipline.ordered_capture noted.ordered) noted.bound rfl,
    discipline.good_capture (open_of_leads (leads.trans (.single moves)) opened)⟩

/-! ### Runs -/

/-- Nothing but the machine is kept in mind. -/
def conduct (discipline : Discipline) : Conduct where
  World := Machine
  machine := id
  Later := Machine.Leads
  Sound := discipline.Sound
  Good := discipline.Good
  Open := discipline.Open

theorem conduct_keeps_iff {Holds : Machine → Result → Prop} {run : Run Result} :
    discipline.conduct.Keeps start Holds run ↔ discipline.Keeps start Holds run := by
  constructor
  · intro keeps machine leads sound result final found
    obtain ⟨_, rfl, further, still, holds⟩ := keeps machine leads sound result final found
    exact ⟨further, still, holds⟩
  · intro keeps machine leads sound result final found
    exact ⟨final, rfl, keeps machine leads sound result final found⟩

theorem plain_of_isPlain {event : Event} (plain : event.isPlain = true) :
    event.isBinding = false := by
  cases event with
  | binding => cases plain
  | _ => rfl

instance : discipline.conduct.Lawful where
  later_refl _ := .refl
  later_trans := .trans
  good_later := good_of_leads
  open_later := open_of_leads
  good_null := discipline.good_null
  good_boolean := discipline.good_boolean
  good_integer := discipline.good_integer
  good_unwrapped := discipline.good_unwrapped
  keeps_note plain carries := conduct_keeps_iff.mpr (keeps_note (plain_of_isPlain plain) carries)
  keeps_leaving good := conduct_keeps_iff.mpr (keeps_leaving good)
  keeps_fail := conduct_keeps_iff.mpr (keeps_fail _)
  keeps_look := conduct_keeps_iff.mpr keeps_look
  keeps_find? := conduct_keeps_iff.mpr (keeps_find? _)
  keeps_bindName good := conduct_keeps_iff.mpr (keeps_bindName _ good)
  keeps_enclose good := conduct_keeps_iff.mpr (keeps_enclose good)
  keeps_literal opened := conduct_keeps_iff.mpr (keeps_literal opened _ _)

/-- An error or a value with the property. -/
abbrev Outcome (discipline : Discipline) (machine : Machine) (value : Value) : Prop :=
  discipline.conduct.Outcome machine value

/-- What a call comes to: one layer was taken off. -/
abbrev Answer (discipline : Discipline) (machine : Machine) (value : Value) : Prop :=
  discipline.conduct.Answer machine value

theorem outcome_of_answer (answer : discipline.Answer machine value) :
    discipline.Outcome machine value :=
  Conduct.outcome_of_answer answer

open Evaluation

theorem callsKeep_call (depth : Nat) : discipline.conduct.CallsKeep (call depth) :=
  Conduct.callsKeep_call depth

/-- Calls keep to the discipline. -/
theorem keeps_apply {calling : Calling} (calls : discipline.conduct.CallsKeep calling)
    {callee : Value} {values : List Value} (called : discipline.Good start callee)
    (given : ∀ value ∈ values, discipline.Good start value) :
    discipline.Keeps start discipline.Answer (apply calling callee values) :=
  conduct_keeps_iff.mp (Conduct.keeps_apply calls called given)

/-- A program keeps to the discipline. -/
theorem keeps_program (program : Program) (depth : Nat) (opened : discipline.Open start scope) :
    discipline.Keeps start (fun later completion => discipline.Answer later completion.value)
      (program.run depth scope) :=
  conduct_keeps_iff.mp (Conduct.keeps_program program depth opened)

end Discipline

end Monkey
