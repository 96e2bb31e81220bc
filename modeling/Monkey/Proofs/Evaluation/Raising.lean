/-
This file evaluates programs once more, with errors that are raised. A raised
error leaves the run at once: nothing here asks whether a value is an error, and
nothing handles one. Operands, arguments and statements are simply taken one
after the other, from left to right. Only a value that is an error by itself,
because it was found as such in the store, is raised in its place.

Evaluation with errors among the values comes to the same.
-/

import Monkey.Proofs.Evaluation.Running

namespace Monkey

/-- A run that an error leaves at once. -/
abbrev Raising := ExceptT Fault Run

namespace Raising

/-! ### Evaluation -/

/-- Makes an error and raises it. -/
def fail {Result : Type} (fault : Fault) : Raising Result := do
  Run.note (.failure fault)
  throw fault

/-- A value that was computed, or the error made in its place. -/
def settle : Except Fault Value → Raising Value
  | .ok value => return value
  | .error fault => fail fault

/-- A value that was found, raised if it is an error. -/
def found : Value → Raising Value
  | .error fault => throw fault
  | value => return value

/-- What happens when a closure is called with as many arguments as it has parameters. -/
abbrev Calling := Closure → List Value → Raising Value

/-- Applies a value to arguments. -/
def apply (calling : Calling) (callee : Value) (arguments : List Value) : Raising Value := do
  Run.note (.application callee arguments)
  match callee with
  | .function closure =>
    if closure.parameters.length ≠ arguments.length then
      fail (.wrongArity closure.parameters.length arguments.length)
    else if ← Run.look then
      fail .interrupted
    else
      calling closure arguments
  | _ => fail (.notFunction callee.kind)

mutual

/-- The value of an expression in a scope. -/
def expression (calling : Calling) (scope : ScopeId) (piece : Expression) : Raising Value := do
  Run.note (.expression piece)
  match piece with
  | .identifier name =>
    match ← Run.find? scope name with
    | some value => found value
    | none => fail (.unbound name)
  | .integer value => return .integer value
  | .boolean value => return .boolean value
  | .prefixed operator operand => do
    let value ← expression calling scope operand
    Run.note (.operand value)
    settle (operator.apply value)
  | .infixed left operator right => do
    let leftValue ← expression calling scope left
    Run.note (.operand leftValue)
    let rightValue ← expression calling scope right
    Run.note (.operand rightValue)
    settle (operator.apply leftValue rightValue)
  | .conditional condition consequence alternative => do
    let value ← expression calling scope condition
    Run.note (.operand value)
    if value.isTruthy then
      statements calling scope .null consequence
    else
      match alternative with
      | some statementsElse => statements calling scope .null statementsElse
      | none => return .null
  | .function parameters body => Run.capture scope parameters body
  | .call callee given => do
    let value ← expression calling scope callee
    Run.note (.operand value)
    let values ← arguments calling scope given
    apply calling value values

/-- The values of arguments in a scope. -/
def arguments (calling : Calling) (scope : ScopeId) : List Expression → Raising (List Value)
  | [] => return []
  | first :: rest => do
    let value ← expression calling scope first
    let values ← arguments calling scope rest
    return value :: values

/-- What a statement comes to in a scope. A binding comes to null. -/
def statement (calling : Calling) (scope : ScopeId) (piece : Statement) : Raising Value := do
  if ← Run.look then
    fail .interrupted
  else
    Run.note (.statement piece)
    match piece with
    | .binding name value => do
      let value ← expression calling scope value
      Run.bindName scope name value
      return .null
    | .returning none => do
      Run.note (.leaving .null)
      return .returned .null
    | .returning (some value) => do
      let value ← expression calling scope value
      Run.note (.leaving value)
      return .returned value
    | .expression value => expression calling scope value

/-- What statements come to: the value of the last one, or the first that is returned. `latest` is
the value so far. -/
def statements (calling : Calling) (scope : ScopeId) (latest : Value) :
    List Statement → Raising Value
  | [] => return latest
  | first :: rest => do
    let value ← statement calling scope first
    match value with
    | .returned _ => return value
    | _ => statements calling scope value rest

end

/-- A call binds the arguments in a new scope inside the one that the closure was made in, and
evaluates the body there. Calls within it nest at most `depth` deep. -/
def call : Nat → Calling
  | 0 => fun _ _ => Run.exhausted
  | depth + 1 => fun closure arguments => do
    let scope ← Run.enclose closure.scope
    Run.bindNames scope closure.parameters arguments
    let value ← statements (call depth) scope .null closure.body
    found value.unwrapped

end Raising

/-- Evaluates a program in a scope. An error that was raised has stopped it. -/
def Program.runRaising (program : Program) (depth : Nat) (scope : ScopeId) : Run Completion := do
  match ← (Raising.statements (Raising.call depth) scope .null program.statements).run with
  | .ok value => return .ofValue value
  | .error fault => return .stopped (.error fault)

/-! ### Agreement -/

/-- No error was made according to the journal. -/
def Machine.Unfailing (machine : Machine) : Prop :=
  ∀ events, machine.journal = some events → ∀ fault, Event.failure fault ∉ events

theorem Machine.unfailing_unobserved (store : Store) (signal : Option Signal) :
    Unfailing ⟨store, signal, none⟩ := by
  intro events kept
  cases kept

theorem Machine.unfailing_start (store : Store) (signal : Option Signal) :
    Unfailing ⟨store, signal, some []⟩ := by
  intro events kept fault
  cases kept
  exact List.not_mem_nil

namespace Raising

variable {Result Following InBand InBandFollowing : Type}

/-- How a run ended with an error: the error was either made at the very end, or it was found. -/
def Ended (fault : Fault) (final : Machine) : Prop :=
  final.Unfailing ∨ ∃ moment : Machine, moment.Unfailing ∧ final = moment.write (.failure fault)

/-- Two results agree: both are nothing, or the same value in two forms and from the same machine.
No error is made before a value that is none. -/
inductive Agreed (embed : Except Fault Result → InBand) (Holds : Result → Prop) :
    Option (InBand × Machine) → Option (Except Fault Result × Machine) → Prop where
  | nothing : Agreed embed Holds none none
  | value {result : Result} {final : Machine} (holds : Holds result)
      (unfailing : final.Unfailing) :
    Agreed embed Holds (some (embed (.ok result), final)) (some (.ok result, final))
  | error {fault : Fault} {final : Machine} (ended : Ended fault final) :
    Agreed embed Holds (some (embed (.error fault), final)) (some (.error fault, final))

/-- A run with errors among its results agrees with one that raises them, unless an error was made
before. -/
def Agree (embed : Except Fault Result → InBand) (Holds : Result → Prop) (run : Run InBand)
    (raising : Raising Result) : Prop :=
  ∀ machine, machine.Unfailing → Agreed embed Holds (run machine) (raising machine)

/-- The value that is an error or none. -/
def embedded : Except Fault Value → Value
  | .ok value => value
  | .error fault => .error fault

/-- The value is no error by itself. -/
def Plain (value : Value) : Prop :=
  value.isError = false

/-- A run with error values agrees with one that raises them. -/
abbrev AgreeOnValue (run : Run Value) (raising : Raising Value) : Prop :=
  Agree embedded Plain run raising

/-! ### Agreement of steps and sequences -/

/-- The step makes no error. -/
def Quiet (step : Run Result) : Prop :=
  ∀ machine result final, machine.Unfailing → step machine = some (result, final) →
    final.Unfailing

theorem unfailing_write {machine : Machine} {event : Event} (unfailing : machine.Unfailing)
    (other : ∀ fault, event ≠ .failure fault) : (machine.write event).Unfailing := by
  intro events kept fault
  obtain ⟨earlier, before, rfl⟩ := Option.map_eq_some_iff.mp kept
  rw [List.mem_cons, not_or]
  exact ⟨(other fault).symm, unfailing earlier before fault⟩

theorem quiet_note {event : Event} (other : ∀ fault, event ≠ .failure fault) :
    Quiet (Run.note event) := by
  intro machine result final unfailing found
  cases found
  exact unfailing_write unfailing other

theorem quiet_look : Quiet Run.look := by
  intro machine result final unfailing found
  unfold Run.look at found
  split at found
  · cases found
    exact unfailing
  · cases found
    refine unfailing_write ?_ fun _ => Event.noConfusion
    exact unfailing

theorem quiet_find? (scope : ScopeId) (name : String) : Quiet (Run.find? scope name) := by
  intro machine result final unfailing found
  cases found
  exact unfailing

theorem quiet_bindName (scope : ScopeId) (name : String) (value : Value) :
    Quiet (Run.bindName scope name value) := by
  intro machine result final unfailing found
  cases found
  refine unfailing_write ?_ fun _ => Event.noConfusion
  exact unfailing

theorem quiet_enclose (outer : ScopeId) : Quiet (Run.enclose outer) := by
  intro machine result final unfailing found
  cases found
  exact unfailing

theorem quiet_bindNames (scope : ScopeId) (names : List String) (values : List Value) :
    Quiet (Run.bindNames scope names values) := by
  induction names generalizing values with
  | nil =>
    intro machine result final unfailing found
    cases found
    exact unfailing
  | cons name names inductionHypothesis =>
    cases values with
    | nil =>
      intro machine result final unfailing found
      cases found
      exact unfailing
    | cons value values =>
      intro machine result final unfailing found
      obtain ⟨_, middle, one, other⟩ := Run.bind_eq_some.mp found
      exact inductionHypothesis values middle result final
        (quiet_bindName scope name value _ _ _ unfailing one) other

section

variable {embed : Except Fault Result → InBand} {Holds : Result → Prop}
  {embed' : Except Fault Following → InBandFollowing} {Holds' : Following → Prop}

/-- Sequences agree if the second run passes errors on. -/
theorem Agree.bind {first : Run InBand} {first' : Raising Result}
    {next : InBand → Run InBandFollowing} {next' : Result → Raising Following}
    (agree : Agree embed Holds first first')
    (onward : ∀ result, Holds result → Agree embed' Holds' (next (embed (.ok result))) (next' result))
    (out : ∀ fault, next (embed (.error fault)) = pure (embed' (.error fault))) :
    Agree embed' Holds' (first >>= next) (first' >>= next') := by
  intro machine unfailing
  have one := agree machine unfailing
  show Agreed _ _ ((first machine).bind fun result => next result.1 result.2)
    ((first' machine).bind fun result => ExceptT.bindCont next' result.1 result.2)
  generalize first machine = left at one ⊢
  generalize first' machine = right at one ⊢
  cases one with
  | nothing => exact .nothing
  | value holds still => exact onward _ holds _ still
  | @error fault final ended =>
    show Agreed _ _ (next (embed (.error fault)) final) _
    rw [out]
    exact .error ended

/-- Runs that agree may follow the same step. -/
theorem agree_step {Middle : Type} {step : Run Middle} {next : Middle → Run InBand}
    {next' : Middle → Raising Result} (quiet : Quiet step)
    (onward : ∀ middle, Agree embed Holds (next middle) (next' middle)) :
    Agree embed Holds (step >>= next) ((liftM step : Raising Middle) >>= next') := by
  intro machine unfailing
  cases one : step machine with
  | none =>
    rw [Run.bind_of_eq_none one, Run.lift_bind_of_eq_none one]
    exact .nothing
  | some result =>
    obtain ⟨middle, final⟩ := result
    rw [Run.bind_of_eq_some one, Run.lift_bind_of_eq_some one]
    exact onward middle final (quiet machine middle final unfailing one)

theorem agree_branch {condition : Prop} [Decidable condition] {first second : Run InBand}
    {first' second' : Raising Result} (yes : Agree embed Holds first first')
    (no : Agree embed Holds second second') :
    Agree embed Holds (if condition then first else second)
      (if condition then first' else second') := by
  split
  · exact yes
  · exact no

theorem agree_ok {result : Result} (holds : Holds result) :
    Agree embed Holds (pure (embed (.ok result))) (pure result) :=
  fun _ unfailing => .value holds unfailing

end

/-! ### Agreement of evaluations -/

theorem agree_value {value : Value} (plain : Plain value) :
    AgreeOnValue (pure value) (pure value) :=
  fun _ unfailing => .value plain unfailing

theorem agree_fail (fault : Fault) : AgreeOnValue (Run.fail fault) (fail fault) :=
  fun machine unfailing => .error (.inr ⟨machine, unfailing, rfl⟩)

theorem agree_found (value : Value) : AgreeOnValue (pure value) (found value) := by
  cases value with
  | error fault => exact fun machine unfailing => .error (.inl unfailing)
  | _ => exact agree_value rfl

theorem agree_settle {outcome : Except Fault Value}
    (plain : ∀ value, outcome = .ok value → Plain value) :
    AgreeOnValue (Run.settle outcome) (settle outcome) := by
  cases outcome with
  | ok value => exact agree_value (plain value rfl)
  | error fault => exact agree_fail fault

theorem agree_thenWith {first : Run Value} {first' : Raising Value} {proceed : Value → Run Value}
    {proceed' : Value → Raising Value} (agree : AgreeOnValue first first')
    (onward : ∀ value, Plain value → AgreeOnValue (proceed value) (proceed' value)) :
    AgreeOnValue (Run.thenWith first proceed) (first' >>= proceed') := by
  refine agree.bind (fun value plain => ?_) fun fault => rfl
  have proceeds : ¬ (embedded (.ok value)).isError = true := by
    rw [show (embedded (.ok value)).isError = false from plain]
    decide
  rw [if_neg proceeds]
  exact onward value plain

theorem plain_of_computed {value : Value}
    (computed : (∃ number, value = .integer number) ∨ ∃ truth, value = .boolean truth) :
    Plain value := by
  obtain ⟨number, rfl⟩ | ⟨truth, rfl⟩ := computed <;> rfl

variable {calling : Evaluation.Calling} {calling' : Calling}

theorem agree_apply
    (calls : ∀ closure values, AgreeOnValue (calling closure values) (calling' closure values))
    (callee : Value) (values : List Value) :
    AgreeOnValue (Evaluation.apply calling callee values) (apply calling' callee values) := by
  refine agree_step (quiet_note fun _ => Event.noConfusion) fun _ => ?_
  cases callee with
  | function closure =>
    refine agree_branch (agree_fail _) (agree_step quiet_look fun raised => ?_)
    exact agree_branch (agree_fail _) (calls closure values)
  | _ => exact agree_fail _

mutual

theorem agree_expression
    (calls : ∀ closure values, AgreeOnValue (calling closure values) (calling' closure values))
    (scope : ScopeId) : ∀ piece,
    AgreeOnValue (Evaluation.expression calling scope piece) (expression calling' scope piece)
  | .identifier name => by
    unfold Evaluation.expression expression
    refine agree_step (quiet_note fun _ => Event.noConfusion) fun _ => ?_
    refine agree_step (quiet_find? scope name) fun outcome => ?_
    cases outcome with
    | none => exact agree_fail _
    | some value => exact agree_found value
  | .integer value => by
    unfold Evaluation.expression expression
    exact agree_step (quiet_note fun _ => Event.noConfusion) fun _ => agree_value rfl
  | .boolean value => by
    unfold Evaluation.expression expression
    exact agree_step (quiet_note fun _ => Event.noConfusion) fun _ => agree_value rfl
  | .prefixed operator operand => by
    unfold Evaluation.expression expression
    refine agree_step (quiet_note fun _ => Event.noConfusion) fun _ => ?_
    refine agree_thenWith (agree_expression calls scope operand) fun value plain => ?_
    refine agree_step (quiet_note fun _ => Event.noConfusion) fun _ => ?_
    exact agree_settle fun _ applied => plain_of_computed (PrefixOperator.apply_eq_ok applied)
  | .infixed left operator right => by
    unfold Evaluation.expression expression
    refine agree_step (quiet_note fun _ => Event.noConfusion) fun _ => ?_
    refine agree_thenWith (agree_expression calls scope left) fun leftValue _ => ?_
    refine agree_step (quiet_note fun _ => Event.noConfusion) fun _ => ?_
    refine agree_thenWith (agree_expression calls scope right) fun rightValue _ => ?_
    refine agree_step (quiet_note fun _ => Event.noConfusion) fun _ => ?_
    exact agree_settle fun _ applied => plain_of_computed (InfixOperator.apply_eq_ok applied)
  | .conditional condition consequence none => by
    unfold Evaluation.expression expression
    refine agree_step (quiet_note fun _ => Event.noConfusion) fun _ => ?_
    refine agree_thenWith (agree_expression calls scope condition) fun value _ => ?_
    refine agree_step (quiet_note fun _ => Event.noConfusion) fun _ => ?_
    exact agree_branch (agree_statements calls scope .null rfl consequence) (agree_value rfl)
  | .conditional condition consequence (some alternative) => by
    unfold Evaluation.expression expression
    refine agree_step (quiet_note fun _ => Event.noConfusion) fun _ => ?_
    refine agree_thenWith (agree_expression calls scope condition) fun value _ => ?_
    refine agree_step (quiet_note fun _ => Event.noConfusion) fun _ => ?_
    exact agree_branch (agree_statements calls scope .null rfl consequence)
      (agree_statements calls scope .null rfl alternative)
  | .function parameters body => by
    unfold Evaluation.expression expression
    refine agree_step (quiet_note fun _ => Event.noConfusion) fun _ => ?_
    exact fun machine unfailing => .value rfl unfailing
  | .call callee given => by
    unfold Evaluation.expression expression
    refine agree_step (quiet_note fun _ => Event.noConfusion) fun _ => ?_
    refine agree_thenWith (agree_expression calls scope callee) fun value _ => ?_
    refine agree_step (quiet_note fun _ => Event.noConfusion) fun _ => ?_
    refine (agree_arguments calls scope given).bind (fun values _ => ?_) fun fault => rfl
    exact agree_apply calls value values

theorem agree_arguments
    (calls : ∀ closure values, AgreeOnValue (calling closure values) (calling' closure values))
    (scope : ScopeId) : ∀ pieces,
    Agree id (fun _ => True) (Evaluation.arguments calling scope pieces)
      (arguments calling' scope pieces)
  | [] => by
    unfold Evaluation.arguments arguments
    exact agree_ok trivial
  | first :: rest => by
    unfold Evaluation.arguments arguments
    refine (agree_expression calls scope first).bind (fun value plain => ?_) fun fault => rfl
    have others : Agree id (fun _ => True) (do
        match ← Evaluation.arguments calling scope rest with
        | .ok values => return Except.ok (value :: values)
        | .error fault => return Except.error fault)
        (do
          let values ← arguments calling' scope rest
          return value :: values) :=
      (agree_arguments calls scope rest).bind (fun values _ => agree_ok trivial)
        fun fault => rfl
    cases value with
    | error fault => cases plain
    | _ => exact others

theorem agree_statement
    (calls : ∀ closure values, AgreeOnValue (calling closure values) (calling' closure values))
    (scope : ScopeId) : ∀ piece,
    AgreeOnValue (Evaluation.statement calling scope piece) (statement calling' scope piece)
  | .binding name value => by
    unfold Evaluation.statement statement
    refine agree_step quiet_look fun raised => agree_branch (agree_fail _) ?_
    refine agree_step (quiet_note fun _ => Event.noConfusion) fun _ => ?_
    refine agree_thenWith (agree_expression calls scope value) fun found _ => ?_
    exact agree_step (quiet_bindName scope name found) fun _ => agree_value rfl
  | .returning none => by
    unfold Evaluation.statement statement
    refine agree_step quiet_look fun raised => agree_branch (agree_fail _) ?_
    refine agree_step (quiet_note fun _ => Event.noConfusion) fun _ => ?_
    exact agree_step (quiet_note fun _ => Event.noConfusion) fun _ => agree_value rfl
  | .returning (some value) => by
    unfold Evaluation.statement statement
    refine agree_step quiet_look fun raised => agree_branch (agree_fail _) ?_
    refine agree_step (quiet_note fun _ => Event.noConfusion) fun _ => ?_
    refine agree_thenWith (agree_expression calls scope value) fun found _ => ?_
    exact agree_step (quiet_note fun _ => Event.noConfusion) fun _ => agree_value rfl
  | .expression value => by
    unfold Evaluation.statement statement
    refine agree_step quiet_look fun raised => agree_branch (agree_fail _) ?_
    refine agree_step (quiet_note fun _ => Event.noConfusion) fun _ => ?_
    exact agree_expression calls scope value

theorem agree_statements
    (calls : ∀ closure values, AgreeOnValue (calling closure values) (calling' closure values))
    (scope : ScopeId) (latest : Value) (plain : Plain latest) : ∀ pieces,
    AgreeOnValue (Evaluation.statements calling scope latest pieces)
      (statements calling' scope latest pieces)
  | [] => by
    unfold Evaluation.statements statements
    exact agree_value plain
  | first :: rest => by
    unfold Evaluation.statements statements
    refine (agree_statement calls scope first).bind (fun value plain => ?_) fun fault => rfl
    cases value with
    | returned value => exact agree_value rfl
    | error fault => cases plain
    | _ => exact agree_statements calls scope _ plain rest

end

/-- Calls agree at every depth. -/
theorem agree_call (depth : Nat) (closure : Closure) (values : List Value) :
    AgreeOnValue (Evaluation.call depth closure values) (call depth closure values) := by
  induction depth generalizing closure values with
  | zero => exact fun _ _ => .nothing
  | succ depth inductionHypothesis =>
    refine agree_step (quiet_enclose closure.scope) fun scope => ?_
    refine agree_step (quiet_bindNames scope closure.parameters values) fun _ => ?_
    refine (agree_statements inductionHypothesis scope .null rfl closure.body).bind
      (fun value _ => agree_found value.unwrapped) fun fault => rfl

end Raising

/-- A program that ends in a completion: how the run with error values and the one that raises
errors have ended. -/
theorem Program.agrees_run (program : Program) (depth : Nat) (scope : ScopeId) {machine : Machine}
    (unfailing : machine.Unfailing) :
    program.run depth scope machine = program.runRaising depth scope machine ∧
      ∀ completion final, program.run depth scope machine = some (completion, final) →
        final.Unfailing ∨ ∃ (fault : Fault) (moment : Machine), moment.Unfailing ∧
          completion = .stopped (.error fault) ∧ final = moment.write (.failure fault) := by
  have agreed := Raising.agree_statements (Raising.agree_call depth) scope .null rfl
    program.statements machine unfailing
  unfold Program.run Program.runRaising
  show (Option.bind _ _ = Option.bind _ _) ∧ ∀ completion final, Option.bind _ _ = _ → _
  unfold ExceptT.run
  generalize Evaluation.statements _ scope .null program.statements machine = left at agreed ⊢
  generalize Raising.statements _ scope .null program.statements machine = right at agreed ⊢
  cases agreed with
  | nothing =>
    refine ⟨rfl, fun completion final ended => ?_⟩
    cases ended
  | value plain still =>
    refine ⟨rfl, fun completion final ended => ?_⟩
    cases ended
    exact .inl still
  | @error fault final ended =>
    refine ⟨rfl, fun completion final found => ?_⟩
    cases found
    obtain still | ⟨moment, before, rfl⟩ := ended
    · exact .inl still
    · exact .inr ⟨fault, moment, before, rfl, rfl⟩

end Monkey
