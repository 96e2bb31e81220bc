/-
This file is about what holds at every point of a run, with what has happened so
far kept in mind. A world is a machine and whatever is remembered with it; the run
goes on in later worlds. Which values are good may depend on the world, as long as
a good value stays good later.

An evaluation conducts itself well if each of its steps does: a step that starts in
a sound world with good values comes to good values in a sound world. A function
literal is one step, though it writes down what it evaluates and then makes the
function. This passes from the steps to every piece of syntax, by induction on the
syntax and on the depth of calls.
-/

import Monkey.Proofs.Evaluation.Composition

namespace Monkey

/-! ### Values in events -/

/-- The values that an event tells of have the property. -/
def Event.Carries (Holds : Value → Prop) : Event → Prop
  | .operand value | .leaving value | .binding _ _ value => Holds value
  | .application callee arguments => Holds callee ∧ ∀ argument ∈ arguments, Holds argument
  | _ => True

theorem Event.Carries.imp {Holds Other : Value → Prop} {event : Event}
    (carries : event.Carries Holds) (implies : ∀ value, Holds value → Other value) :
    event.Carries Other := by
  cases event with
  | operand value | leaving value | binding _ _ value => exact implies _ carries
  | application callee arguments =>
    exact ⟨implies _ carries.1, fun argument member => implies _ (carries.2 argument member)⟩
  | _ => trivial

/-- Whether an event neither binds a name nor starts to make a function. -/
def Event.isPlain : Event → Bool
  | .binding _ _ _ | .expression (.function _ _) => false
  | _ => true

/-! ### Worlds -/

/-- What is kept in mind during a run. -/
structure Conduct where
  /-- The machine, and what is remembered with it. -/
  World : Type
  machine : World → Machine
  /-- A run can go from the one world to the other. -/
  Later : World → World → Prop
  /-- What is bound or was written down is good. -/
  Sound : World → Prop
  Good : World → Value → Prop
  /-- The scope may be used. -/
  Open : World → ScopeId → Prop

namespace Conduct

variable (conduct : Conduct) {Result Following : Type}

/-- From whatever world it starts in, the run goes to a later one, and what it comes to is as it
should be there. -/
def Keeps (start : conduct.World) (Holds : conduct.World → Result → Prop) (run : Run Result) :
    Prop :=
  ∀ now, conduct.Later start now → conduct.Sound now → ∀ result final,
    run (conduct.machine now) = some (result, final) →
      ∃ after, conduct.machine after = final ∧ conduct.Later now after ∧ conduct.Sound after ∧
        Holds after result

/-- An error or a good value. -/
def Outcome (world : conduct.World) (value : Value) : Prop :=
  value.isError = true ∨ conduct.Good world value

/-- What a call comes to: one layer was taken off. -/
def Answer (world : conduct.World) (value : Value) : Prop :=
  ∃ inner, conduct.Outcome world inner ∧ value = inner.unwrapped

section

variable {conduct} {start : conduct.World}

theorem Keeps.weaken {Holds Wanted : conduct.World → Result → Prop} {run : Run Result}
    (keeps : conduct.Keeps start Holds run)
    (wanted : ∀ later result, Holds later result → Wanted later result) :
    conduct.Keeps start Wanted run := by
  intro now leads sound result final found
  obtain ⟨after, same, further, still, held⟩ := keeps now leads sound result final found
  exact ⟨after, same, further, still, wanted after result held⟩

theorem keeps_branch {Holds : conduct.World → Result → Prop} {condition : Prop}
    [Decidable condition] {first second : Run Result} (yes : conduct.Keeps start Holds first)
    (no : conduct.Keeps start Holds second) :
    conduct.Keeps start Holds (if condition then first else second) := by
  split
  · exact yes
  · exact no

theorem answer_of_error {world : conduct.World} {fault : Fault} :
    conduct.Answer world (.error fault) :=
  ⟨.error fault, .inl rfl, rfl⟩

theorem keeps_exhausted {Holds : conduct.World → Result → Prop} :
    conduct.Keeps start Holds Run.exhausted :=
  fun _ _ _ _ _ found => nomatch found

end

/-- Every step of a run does as it should. -/
class Lawful : Prop where
  later_refl : ∀ world, conduct.Later world world
  later_trans : ∀ {first middle last}, conduct.Later first middle → conduct.Later middle last →
    conduct.Later first last
  good_later : ∀ {now later value}, conduct.Later now later → conduct.Good now value →
    conduct.Good later value
  open_later : ∀ {now later scope}, conduct.Later now later → conduct.Open now scope →
    conduct.Open later scope
  good_null : ∀ {world}, conduct.Good world .null
  good_boolean : ∀ {world truth}, conduct.Good world (.boolean truth)
  good_integer : ∀ {world number}, conduct.Good world (.integer number)
  good_unwrapped : ∀ {world value}, conduct.Good world value → conduct.Good world value.unwrapped
  keeps_note : ∀ {start event}, event.isPlain = true → event.Carries (conduct.Good start) →
    conduct.Keeps start (fun _ _ => True) (Run.note event)
  /-- What is returned was written down. -/
  keeps_leaving : ∀ {start value}, conduct.Good start value →
    conduct.Keeps start (fun later _ => conduct.Good later (.returned value))
      (Run.note (.leaving value))
  keeps_fail : ∀ {start fault},
    conduct.Keeps start (fun _ value => value = .error fault) (Run.fail fault)
  keeps_look : ∀ {start}, conduct.Keeps start (fun _ _ => True) Run.look
  keeps_find? : ∀ {start scope name}, conduct.Keeps start
    (fun later found => ∀ value ∈ found, conduct.Good later value) (Run.find? scope name)
  keeps_bindName : ∀ {start scope name value}, conduct.Good start value →
    conduct.Keeps start (fun _ _ => True) (Run.bindName scope name value)
  keeps_enclose : ∀ {start closure}, conduct.Good start (.function closure) →
    conduct.Keeps start conduct.Open (Run.enclose closure.scope)
  /-- A function is made of the literal that was written down. -/
  keeps_literal : ∀ {start scope parameters body}, conduct.Open start scope →
    conduct.Keeps start conduct.Good (do
      Run.note (.expression (.function parameters body))
      Run.capture scope parameters body)

open Lawful

variable {conduct} [conduct.Lawful] {start : conduct.World} {value : Value} {scope : ScopeId}

/-! ### Sequences -/

theorem keeps_pure {Holds : conduct.World → Result → Prop} {result : Result}
    (holds : ∀ later, conduct.Later start later → Holds later result) :
    conduct.Keeps start Holds (pure result) := by
  intro now leads sound _ final found
  cases found
  exact ⟨now, rfl, later_refl now, sound, holds now leads⟩

theorem Keeps.bind {First : conduct.World → Result → Prop}
    {Second : conduct.World → Following → Prop} {first : Run Result}
    {second : Result → Run Following}
    (one : conduct.Keeps start First first)
    (next : ∀ later, conduct.Later start later → ∀ result, First later result →
      conduct.Keeps later Second (second result)) :
    conduct.Keeps start Second (first >>= second) := by
  intro now leads sound value final found
  obtain ⟨result, _, here, there⟩ := Run.bind_eq_some.mp found
  obtain ⟨middle, rfl, further, still, reached⟩ := one now leads sound result _ here
  obtain ⟨after, same, onward, last, held⟩ := next middle (later_trans leads further) result
    reached middle (later_refl middle) still value final there
  exact ⟨after, same, later_trans further onward, last, held⟩

theorem keeps_noted {Holds : conduct.World → Result → Prop} {event : Event} {run : Run Result}
    (plain : event.isPlain = true) (carries : event.Carries (conduct.Good start))
    (keeps : ∀ later, conduct.Later start later → conduct.Keeps later Holds run) :
    conduct.Keeps start Holds (do
      Run.note event
      run) :=
  (keeps_note plain carries).bind fun later leads _ _ => keeps later leads

theorem keeps_bindNames (names : List String) {values : List Value}
    (good : ∀ value ∈ values, conduct.Good start value) :
    conduct.Keeps start (fun _ _ => True) (Run.bindNames scope names values) := by
  induction names generalizing start values with
  | nil => exact keeps_pure fun _ _ => trivial
  | cons name names inductionHypothesis =>
    cases values with
    | nil => exact keeps_pure fun _ _ => trivial
    | cons value values =>
      obtain ⟨first, rest⟩ := List.forall_mem_cons.mp good
      exact (keeps_bindName first).bind fun later leads _ _ =>
        inductionHypothesis fun value member => good_later leads (rest value member)

/-- An error is an outcome. -/
theorem keeps_failed (fault : Fault) : conduct.Keeps start conduct.Outcome (Run.fail fault) := by
  refine keeps_fail.weaken fun _ value same => .inl ?_
  rw [same]
  rfl

theorem keeps_settle {outcome : Except Fault Value} (computes : ∀ value, outcome = .ok value →
      (∃ number, value = .integer number) ∨ ∃ truth, value = .boolean truth) :
    conduct.Keeps start conduct.Outcome (Run.settle outcome) := by
  cases outcome with
  | error fault => exact keeps_failed fault
  | ok value =>
    refine keeps_pure fun _ _ => .inr ?_
    obtain ⟨number, rfl⟩ | ⟨truth, rfl⟩ := computes value rfl
    · exact good_integer
    · exact good_boolean

/-- Only good values are gone on with. -/
theorem Keeps.thenWith {first : Run Value} {proceed : Value → Run Value}
    (one : conduct.Keeps start conduct.Outcome first)
    (next : ∀ later, conduct.Later start later → ∀ value, conduct.Good later value →
      conduct.Keeps later conduct.Outcome (proceed value)) :
    conduct.Keeps start conduct.Outcome (Run.thenWith first proceed) := by
  refine one.bind fun later leads value outcome => ?_
  cases failed : value.isError with
  | true => exact keeps_pure fun _ _ => .inl failed
  | false =>
    obtain wrong | good := outcome
    · cases failed.symm.trans wrong
    · exact next later leads value good

/-- An operand is written down first. -/
theorem Keeps.operand {first : Run Value} {proceed : Value → Run Value}
    (one : conduct.Keeps start conduct.Outcome first)
    (next : ∀ later, conduct.Later start later → ∀ value, conduct.Good later value →
      conduct.Keeps later conduct.Outcome (proceed value)) :
    conduct.Keeps start conduct.Outcome
      (Run.thenWith first fun value => do
        Run.note (.operand value)
        proceed value) := by
  refine one.thenWith fun later leads value good => ?_
  refine keeps_noted rfl good fun last further => ?_
  exact next last (later_trans leads further) value (good_later further good)

/-- A statement that is not begun after an interrupt. -/
theorem keeps_guarded {piece : Statement} {run : Run Value}
    (keeps : ∀ later, conduct.Later start later → conduct.Keeps later conduct.Outcome run) :
    conduct.Keeps start conduct.Outcome (do
      if ← Run.look then Run.fail .interrupted
      else
        Run.note (.statement piece)
        run) := by
  refine keeps_look.bind fun later leads _ _ => keeps_branch (keeps_failed _) ?_
  refine keeps_noted rfl trivial fun last further => ?_
  exact keeps last (later_trans leads further)

/-! ### Pieces of syntax -/

open Evaluation

/-- Calls of functions keep to the conduct. -/
def CallsKeep (conduct : Conduct) (calling : Calling) : Prop :=
  ∀ start closure values, conduct.Good start (.function closure) →
    (∀ value ∈ values, conduct.Good start value) →
      conduct.Keeps start conduct.Answer (calling closure values)

theorem outcome_of_answer {world : conduct.World} (answer : conduct.Answer world value) :
    conduct.Outcome world value := by
  obtain ⟨inner, failed | good, rfl⟩ := answer
  · cases inner with
    | error fault => exact .inl rfl
    | _ => cases failed
  · exact .inr (good_unwrapped good)

variable {calling : Calling}

theorem keeps_apply (calls : conduct.CallsKeep calling) {callee : Value} {values : List Value}
    (called : conduct.Good start callee) (given : ∀ value ∈ values, conduct.Good start value) :
    conduct.Keeps start conduct.Answer (apply calling callee values) := by
  -- An error is its own answer, since no layer can be taken off it.
  have fails {world : conduct.World} (fault : Fault) :
      conduct.Keeps world conduct.Answer (Run.fail fault) := by
    refine keeps_fail.weaken fun _ value same => ?_
    rw [same]
    exact answer_of_error
  unfold apply
  refine keeps_noted rfl ⟨called, given⟩ fun later leads => ?_
  cases callee with
  | function closure =>
    refine keeps_branch (fails _) (keeps_look.bind fun last further raised _ => ?_)
    refine keeps_branch (fails _) ?_
    exact calls last closure values (good_later (later_trans leads further) called)
      fun value member => good_later (later_trans leads further) (given value member)
  | _ => exact fails _

mutual

theorem keeps_expression (calls : conduct.CallsKeep calling) : ∀ piece {start : conduct.World}
    {scope : ScopeId}, conduct.Open start scope →
      conduct.Keeps start conduct.Outcome (expression calling scope piece)
  | .identifier name, _, _, _ => by
    unfold expression
    refine keeps_noted rfl trivial fun _ _ => keeps_find?.bind ?_
    intro later _ found good
    cases found with
    | none => exact keeps_failed _
    | some value => exact keeps_pure fun _ leads => .inr (good_later leads (good value rfl))
  | .integer value, _, _, _ => by
    unfold expression
    exact keeps_noted rfl trivial fun _ _ => keeps_pure fun _ _ => .inr good_integer
  | .boolean value, _, _, _ => by
    unfold expression
    exact keeps_noted rfl trivial fun _ _ => keeps_pure fun _ _ => .inr good_boolean
  | .prefixed operator operand, _, _, opened => by
    unfold expression
    refine keeps_noted rfl trivial fun _ leads => ?_
    refine (keeps_expression calls operand (open_later leads opened)).operand ?_
    exact fun _ _ _ _ => keeps_settle fun _ => PrefixOperator.apply_eq_ok
  | .infixed left operator right, _, _, opened => by
    unfold expression
    refine keeps_noted rfl trivial fun _ leads => ?_
    have opened := open_later leads opened
    refine (keeps_expression calls left opened).operand fun _ further _ _ => ?_
    refine (keeps_expression calls right (open_later further opened)).operand ?_
    exact fun _ _ _ _ => keeps_settle fun _ => InfixOperator.apply_eq_ok
  | .conditional condition consequence none, _, _, opened => by
    unfold expression
    refine keeps_noted rfl trivial fun _ leads => ?_
    have opened := open_later leads opened
    refine (keeps_expression calls condition opened).operand fun _ further _ _ => ?_
    refine keeps_branch ?_ (keeps_pure fun _ _ => .inr good_null)
    exact keeps_statements calls consequence (.inr good_null) (open_later further opened)
  | .conditional condition consequence (some alternative), _, _, opened => by
    unfold expression
    refine keeps_noted rfl trivial fun _ leads => ?_
    have opened := open_later leads opened
    refine (keeps_expression calls condition opened).operand fun _ further _ _ => ?_
    have opened := open_later further opened
    refine keeps_branch ?_ ?_
    · exact keeps_statements calls consequence (.inr good_null) opened
    · exact keeps_statements calls alternative (.inr good_null) opened
  | .function parameters body, _, _, opened => by
    unfold expression
    exact (keeps_literal opened).weaken fun _ _ => .inr
  | .call callee given, _, _, opened => by
    unfold expression
    refine keeps_noted rfl trivial fun _ leads => ?_
    have opened := open_later leads opened
    refine (keeps_expression calls callee opened).operand fun _ further value called => ?_
    -- The callee was found before the arguments were, and has kept the property since.
    refine (keeps_arguments calls given (open_later further opened)).bind ?_
    intro last onward outcome good
    cases outcome with
    | ok values =>
      exact (keeps_apply calls (good_later onward called) (good values rfl)).weaken
        fun _ _ => outcome_of_answer
    | error fault => exact keeps_pure fun _ _ => .inl rfl

theorem keeps_arguments (calls : conduct.CallsKeep calling) : ∀ pieces {start : conduct.World}
    {scope : ScopeId}, conduct.Open start scope →
      conduct.Keeps start (fun later outcome => ∀ values, outcome = .ok values →
        ∀ value ∈ values, conduct.Good later value) (arguments calling scope pieces)
  | [], _, _, _ => by
    unfold arguments
    refine keeps_pure fun _ _ values same => ?_
    cases same
    exact List.forall_mem_nil _
  | first :: rest, _, scope, opened => by
    unfold arguments
    refine (keeps_expression calls first opened).bind fun later leads value outcome => ?_
    cases value with
    | error fault => exact keeps_pure fun _ _ _ same => nomatch same
    | _ =>
      have good := outcome.resolve_left Bool.false_ne_true
      refine (keeps_arguments calls rest (open_later leads opened)).bind ?_
      intro last further outcome others
      cases outcome with
      | ok values =>
        refine keeps_pure fun _ onward all same => ?_
        cases same
        exact List.forall_mem_cons.mpr ⟨good_later (later_trans further onward) good,
          fun value member => good_later onward (others values rfl value member)⟩
      | error fault => exact keeps_pure fun _ _ _ same => nomatch same

theorem keeps_statement (calls : conduct.CallsKeep calling) : ∀ piece {start : conduct.World}
    {scope : ScopeId}, conduct.Open start scope →
      conduct.Keeps start conduct.Outcome (statement calling scope piece)
  | .binding name value, _, _, opened => by
    unfold statement
    refine keeps_guarded fun _ leads => ?_
    refine (keeps_expression calls value (open_later leads opened)).thenWith ?_
    exact fun _ _ found good => (keeps_bindName good).bind fun _ _ _ _ =>
      keeps_pure fun _ _ => .inr good_null
  | .returning none, _, _, _ => by
    unfold statement
    refine keeps_guarded fun _ _ => (keeps_leaving good_null).bind ?_
    exact fun _ _ _ good => keeps_pure fun _ leads => .inr (good_later leads good)
  | .returning (some value), _, _, opened => by
    unfold statement
    refine keeps_guarded fun _ leads => ?_
    refine (keeps_expression calls value (open_later leads opened)).thenWith ?_
    exact fun _ _ found good => (keeps_leaving good).bind fun _ _ _ returned =>
      keeps_pure fun _ further => .inr (good_later further returned)
  | .expression value, _, _, opened => by
    unfold statement
    exact keeps_guarded fun _ leads => keeps_expression calls value (open_later leads opened)

theorem keeps_statements (calls : conduct.CallsKeep calling) : ∀ pieces {start : conduct.World}
    {scope : ScopeId} {latest : Value}, conduct.Outcome start latest →
      conduct.Open start scope →
        conduct.Keeps start conduct.Outcome (statements calling scope latest pieces)
  | [], _, _, _, outcome, _ => by
    unfold statements
    exact keeps_pure fun _ leads => outcome.imp id (good_later leads)
  | first :: rest, _, _, _, _, opened => by
    unfold statements
    refine (keeps_statement calls first opened).bind fun _ leads value outcome => ?_
    refine keeps_branch (keeps_pure fun _ further => outcome.imp id (good_later further)) ?_
    exact keeps_statements calls rest outcome (open_later leads opened)

end

/-! ### Calls and programs -/

theorem callsKeep_call (depth : Nat) : conduct.CallsKeep (call depth) := by
  induction depth with
  | zero => exact fun _ _ _ _ _ => keeps_exhausted
  | succ depth inductionHypothesis =>
    intro start closure values called given
    refine (keeps_enclose called).bind fun later leads inner opened => ?_
    have given := fun value member => good_later leads (given value member)
    refine (keeps_bindNames closure.parameters given).bind fun last further _ _ => ?_
    refine (keeps_statements inductionHypothesis closure.body (.inr good_null)
      (open_later further opened)).bind fun _ _ value outcome => ?_
    exact keeps_pure fun _ onward => ⟨value, outcome.imp id (good_later onward), rfl⟩

/-- A program keeps to the conduct. -/
theorem keeps_program (program : Program) (depth : Nat) (opened : conduct.Open start scope) :
    conduct.Keeps start (fun later completion => conduct.Answer later completion.value)
      (program.run depth scope) := by
  refine (keeps_statements (callsKeep_call depth) program.statements (.inr good_null)
    opened).bind fun _ _ value outcome => keeps_pure fun _ leads => ?_
  refine ⟨value, outcome.imp id (good_later leads), ?_⟩
  cases value <;> rfl

end Conduct

end Monkey
