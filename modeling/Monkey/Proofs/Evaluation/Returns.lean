/-
This file shows that returned values which travel among the others come to what
exits come to, in a program whose returns are well placed. The store is a part of
the argument: no scope binds a returned value or an error, and the body of every
function in it is well placed. Both evaluations keep it so, and the journal shows
that no other value is ever an operand, an argument, or returned.
-/

import Monkey.Proofs.Evaluation.Exits
import Monkey.Proofs.Evaluation.Observation
import Monkey.Proofs.Evaluation.Raising
import Monkey.Proofs.Scopes

namespace Monkey

/-! ### Proper values -/

/-- A value that programs compute with: it is neither returned nor an error, and every `return` in
a function is well placed. -/
def Value.Proper : Value → Prop
  | .returned _ | .error _ => False
  | .function closure => StatementsWellPlaced true closure.body
  | _ => True

theorem Value.proper_null : Value.null.Proper :=
  trivial

/-- Only proper values are bound, used as operands, passed as arguments and returned. -/
def Event.Proper : Event → Prop
  | .operand value | .binding _ _ value | .leaving value => value.Proper
  | .application callee arguments => callee.Proper ∧ ∀ value ∈ arguments, value.Proper
  | _ => True

/-- Only proper values are bound in the store, and all events were proper. -/
structure Machine.Proper (machine : Machine) : Prop where
  store : machine.store.Binds Value.Proper
  journal : ∀ events, machine.journal = some events → ∀ event ∈ events, event.Proper

theorem Machine.Proper.write {machine : Machine} {event : Event} (proper : machine.Proper)
    (added : event.Proper) : (machine.write event).Proper where
  store := proper.store
  journal events kept other member := by
    obtain ⟨earlier, before, rfl⟩ := Option.map_eq_some_iff.mp kept
    obtain rfl | member := List.mem_cons.mp member
    · exact added
    · exact proper.journal earlier before other member

theorem Value.proper_of_computed {value : Value}
    (computed : (∃ number, value = .integer number) ∨ ∃ truth, value = .boolean truth) :
    value.Proper := by
  obtain ⟨number, rfl⟩ | ⟨truth, rfl⟩ := computed <;> exact trivial

namespace Leaving

variable {Result Following Middle : Type}

/-! ### Agreement -/

/-- Two results agree: both are nothing, or the same value, or the same error. Where `back` says
how returned values travel, one may also travel in the first result and leave the second. -/
inductive Agreed (back : Option (Value → Result)) (Holds : Result → Prop) :
    Option (Except Fault Result × Machine) → Option (Except Exit Result × Machine) → Prop where
  | nothing : Agreed back Holds none none
  | value {result : Result} {final : Machine} (holds : Holds result) (proper : final.Proper) :
    Agreed back Holds (some (.ok result, final)) (some (.ok result, final))
  | returning {travelling : Value → Result} {value : Value} {final : Machine}
      (allowed : back = some travelling) (holds : value.Proper) (proper : final.Proper) :
    Agreed back Holds (some (.ok (travelling value), final)) (some (.error (.returning value), final))
  | failing {fault : Fault} {final : Machine} (proper : final.Proper) :
    Agreed back Holds (some (.error fault, final)) (some (.error (.failing fault), final))

/-- A run in which returned values travel agrees with one that they leave. -/
def Agree (back : Option (Value → Result)) (Holds : Result → Prop) (raising : Raising Result)
    (leaving : Leaving Result) : Prop :=
  ∀ machine, machine.Proper → Agreed back Holds (raising machine) (leaving machine)

/-- How returned values travel among the values of statements, if there may be any. -/
def travelling : Bool → Option (Value → Value)
  | true => some .returned
  | false => none

/-- Values agree, and are proper unless they are returned. -/
abbrev AgreeOnValue (returns : Bool) (raising : Raising Value) (leaving : Leaving Value) : Prop :=
  Agree (travelling returns) Value.Proper raising leaving

/-- From a proper machine, the step comes to a result with the property and to a proper machine. -/
def Keeps (Holds : Result → Prop) (step : Run Result) : Prop :=
  ∀ machine result final, machine.Proper → step machine = some (result, final) →
    Holds result ∧ final.Proper

/-! ### Sequences -/

section

variable {back : Option (Value → Result)} {Holds : Result → Prop}
  {back' : Option (Value → Following)} {Holds' : Following → Prop}

/-- Sequences agree if the first one passes returned values on. -/
theorem Agree.bind {first : Raising Result} {first' : Leaving Result}
    {next : Result → Raising Following} {next' : Result → Leaving Following}
    (agree : Agree back Holds first first')
    (onward : ∀ result, Holds result → Agree back' Holds' (next result) (next' result))
    (out : ∀ travelling, back = some travelling → ∃ travelling', back' = some travelling' ∧
      ∀ value, next (travelling value) = pure (travelling' value)) :
    Agree back' Holds' (first >>= next) (first' >>= next') := by
  intro machine proper
  have one := agree machine proper
  show Agreed _ _ ((first machine).bind fun result => ExceptT.bindCont next result.1 result.2)
    ((first' machine).bind fun result => ExceptT.bindCont next' result.1 result.2)
  generalize first machine = left at one ⊢
  generalize first' machine = right at one ⊢
  cases one with
  | nothing => exact .nothing
  | value holds still => exact onward _ holds _ still
  | @returning travelling value final allowed holds still =>
    obtain ⟨travelling', allowed', passed⟩ := out travelling allowed
    show Agreed _ _ (next (travelling value) final) _
    rw [passed]
    exact .returning allowed' holds still
  | failing still => exact .failing still

/-- Sequences agree if nothing is returned in their first parts. -/
theorem Agree.bind_plain {first : Raising Result} {first' : Leaving Result}
    {next : Result → Raising Following} {next' : Result → Leaving Following}
    (agree : Agree none Holds first first')
    (onward : ∀ result, Holds result → Agree back' Holds' (next result) (next' result)) :
    Agree back' Holds' (first >>= next) (first' >>= next') :=
  agree.bind onward fun _ allowed => nomatch allowed

theorem Agree.loosen {raising : Raising Result} {leaving : Leaving Result}
    (agree : Agree none Holds raising leaving) : Agree back Holds raising leaving := by
  intro machine proper
  have one := agree machine proper
  generalize raising machine = left at one ⊢
  generalize leaving machine = right at one ⊢
  cases one with
  | nothing => exact .nothing
  | value holds still => exact .value holds still
  | returning allowed => cases allowed
  | failing still => exact .failing still

theorem agree_step {Reached : Middle → Prop} {step : Run Middle} {next : Middle → Raising Result}
    {next' : Middle → Leaving Result} (keeps : Keeps Reached step)
    (onward : ∀ middle, Reached middle → Agree back Holds (next middle) (next' middle)) :
    Agree back Holds ((liftM step : Raising Middle) >>= next)
      ((liftM step : Leaving Middle) >>= next') := by
  intro machine proper
  cases one : step machine with
  | none =>
    rw [Run.lift_bind_of_eq_none one, Run.lift_bind_of_eq_none one]
    exact .nothing
  | some result =>
    obtain ⟨middle, final⟩ := result
    obtain ⟨reached, still⟩ := keeps machine middle final proper one
    rw [Run.lift_bind_of_eq_some one, Run.lift_bind_of_eq_some one]
    exact onward middle reached final still

theorem agree_branch {condition : Prop} [Decidable condition] {first second : Raising Result}
    {first' second' : Leaving Result} (yes : Agree back Holds first first')
    (no : Agree back Holds second second') :
    Agree back Holds (if condition then first else second)
      (if condition then first' else second') := by
  split
  · exact yes
  · exact no

theorem agree_pure {result : Result} (holds : Holds result) :
    Agree back Holds (pure result) (pure result) :=
  fun _ proper => .value holds proper

theorem agree_fail (fault : Fault) : Agree back Holds (Raising.fail fault) (fail fault) :=
  fun _ proper => .failing (proper.write trivial)

end

/-! ### Steps -/

theorem keeps_note {event : Event} (added : event.Proper) :
    Keeps (fun _ => True) (Run.note event) := by
  intro machine result final proper found
  cases found
  exact ⟨trivial, proper.write added⟩

theorem keeps_look : Keeps (fun _ => True) Run.look := by
  intro machine result final proper found
  unfold Run.look at found
  split at found
  · cases found
    exact ⟨trivial, proper⟩
  · cases found
    refine ⟨trivial, Machine.Proper.write ?_ trivial⟩
    exact ⟨proper.store, proper.journal⟩

theorem keeps_find? (scope : ScopeId) (name : String) :
    Keeps (fun found => ∀ value, found = some value → value.Proper) (Run.find? scope name) := by
  intro machine result final proper found
  cases found
  exact ⟨fun value => proper.store.get?, proper⟩

theorem keeps_bindName (scope : ScopeId) (name : String) {value : Value} (holds : value.Proper) :
    Keeps (fun _ => True) (Run.bindName scope name value) := by
  intro machine result final proper found
  cases found
  refine ⟨trivial, Machine.Proper.write ?_ holds⟩
  exact ⟨proper.store.set holds name, proper.journal⟩

theorem keeps_enclose (outer : ScopeId) : Keeps (fun _ => True) (Run.enclose outer) := by
  intro machine result final proper found
  cases found
  exact ⟨trivial, proper.store.enclose outer, proper.journal⟩

theorem keeps_bindNames (scope : ScopeId) (names : List String) {values : List Value}
    (hold : ∀ value ∈ values, value.Proper) :
    Keeps (fun _ => True) (Run.bindNames scope names values) := by
  induction names generalizing values with
  | nil =>
    intro machine result final proper found
    cases found
    exact ⟨trivial, proper⟩
  | cons name names inductionHypothesis =>
    cases values with
    | nil =>
      intro machine result final proper found
      cases found
      exact ⟨trivial, proper⟩
    | cons value values =>
      obtain ⟨holds, others⟩ := List.forall_mem_cons.mp hold
      intro machine result final proper found
      obtain ⟨_, middle, one, other⟩ := Run.bind_eq_some.mp found
      obtain ⟨_, still⟩ := keeps_bindName scope name holds _ _ _ proper one
      exact inductionHypothesis others middle result final still other

theorem agree_capture (scope : ScopeId) (parameters : List String) {body : List Statement}
    (placed : StatementsWellPlaced true body) (returns : Bool) :
    AgreeOnValue returns (liftM (Run.capture scope parameters body))
      (liftM (Run.capture scope parameters body)) :=
  fun _ proper => .value placed ⟨proper.store, proper.journal⟩

/-! ### Evaluation -/

theorem agree_found {value : Value} (proper : value.Proper) (returns : Bool) :
    AgreeOnValue returns (Raising.found value) (pure value) := by
  cases value with
  | error fault => cases proper
  | _ => exact agree_pure proper

theorem agree_settle {outcome : Except Fault Value} (returns : Bool)
    (proper : ∀ value, outcome = .ok value → value.Proper) :
    AgreeOnValue returns (Raising.settle outcome) (settle outcome) := by
  cases outcome with
  | ok value => exact agree_pure (proper value rfl)
  | error fault => exact agree_fail fault

/-- What is returned in a body is the value of the call. -/
theorem agree_caught {body : Raising Value} {body' : Leaving Value}
    (agree : AgreeOnValue true body body') :
    AgreeOnValue false (body >>= fun value => Raising.found value.unwrapped) (caught body') := by
  intro machine proper
  have one := agree machine proper
  show Agreed _ _ ((body machine).bind fun result =>
    ExceptT.bindCont (fun value => Raising.found value.unwrapped) result.1 result.2)
    ((body' machine).bind _)
  generalize body machine = left at one ⊢
  generalize body' machine = right at one ⊢
  cases one with
  | nothing => exact .nothing
  | @value result final holds still =>
    -- A body that ends without a `return` comes to a proper value, which wraps nothing.
    have same : result.unwrapped = result := by
      cases result with
      | returned value => cases holds
      | _ => rfl
    show Agreed _ _ (Raising.found result.unwrapped final) _
    rw [same]
    exact agree_found holds false final still
  | @returning travelling value final allowed holds still =>
    cases allowed
    exact agree_found holds false final still
  | failing still => exact .failing still

variable {calling : Raising.Calling} {calling' : Calling}

/-- Calls of functions whose returns are well placed agree on proper arguments. -/
abbrev CallsAgree (calling : Raising.Calling) (calling' : Calling) : Prop :=
  ∀ closure values, StatementsWellPlaced true closure.body → (∀ value ∈ values, value.Proper) →
    AgreeOnValue false (calling closure values) (calling' closure values)

theorem agree_apply (calls : CallsAgree calling calling') {callee : Value} {values : List Value}
    (proper : callee.Proper) (hold : ∀ value ∈ values, value.Proper) :
    AgreeOnValue false (Raising.apply calling callee values) (apply calling' callee values) := by
  refine agree_step (keeps_note ⟨proper, hold⟩) fun _ _ => ?_
  cases callee with
  | function closure =>
    refine agree_branch (agree_fail _) (agree_step keeps_look fun raised _ => ?_)
    exact agree_branch (agree_fail _) (calls closure values proper hold)
  | _ => exact agree_fail _

mutual

theorem agree_expression (calls : CallsAgree calling calling') (scope : ScopeId)
    (returns : Bool) : ∀ piece, piece.WellPlaced returns →
      AgreeOnValue returns (Raising.expression calling scope piece)
        (expression calling' scope piece)
  | .identifier name, _ => by
    unfold Raising.expression expression
    refine agree_step (keeps_note trivial) fun _ _ => ?_
    refine agree_step (keeps_find? scope name) fun outcome bound => ?_
    cases outcome with
    | none => exact agree_fail _
    | some value => exact agree_found (bound value rfl) returns
  | .integer value, _ => by
    unfold Raising.expression expression
    exact agree_step (keeps_note trivial) fun _ _ => agree_pure trivial
  | .boolean value, _ => by
    unfold Raising.expression expression
    exact agree_step (keeps_note trivial) fun _ _ => agree_pure trivial
  | .prefixed operator operand, placed => by
    unfold Expression.WellPlaced at placed
    unfold Raising.expression expression
    refine agree_step (keeps_note trivial) fun _ _ => ?_
    refine (agree_expression calls scope false operand placed).bind_plain fun value holds => ?_
    refine agree_step (keeps_note holds) fun _ _ => ?_
    exact agree_settle returns fun _ applied =>
      Value.proper_of_computed (PrefixOperator.apply_eq_ok applied)
  | .infixed left operator right, placed => by
    unfold Expression.WellPlaced at placed
    unfold Raising.expression expression
    refine agree_step (keeps_note trivial) fun _ _ => ?_
    refine (agree_expression calls scope false left placed.1).bind_plain fun leftValue holds => ?_
    refine agree_step (keeps_note holds) fun _ _ => ?_
    refine (agree_expression calls scope false right placed.2).bind_plain fun rightValue holds => ?_
    refine agree_step (keeps_note holds) fun _ _ => ?_
    exact agree_settle returns fun _ applied =>
      Value.proper_of_computed (InfixOperator.apply_eq_ok applied)
  | .conditional condition consequence none, placed => by
    unfold Expression.WellPlaced at placed
    obtain ⟨placedCondition, placedYes, _⟩ := placed
    unfold Raising.expression expression
    refine agree_step (keeps_note trivial) fun _ _ => ?_
    refine (agree_expression calls scope false condition placedCondition).bind_plain ?_
    intro value holds
    refine agree_step (keeps_note holds) fun _ _ => ?_
    exact agree_branch (agree_statements calls scope returns Value.proper_null consequence placedYes)
      (agree_pure trivial)
  | .conditional condition consequence (some alternative), placed => by
    unfold Expression.WellPlaced at placed
    obtain ⟨placedCondition, placedYes, placedNo⟩ := placed
    unfold Raising.expression expression
    refine agree_step (keeps_note trivial) fun _ _ => ?_
    refine (agree_expression calls scope false condition placedCondition).bind_plain ?_
    intro value holds
    refine agree_step (keeps_note holds) fun _ _ => ?_
    exact agree_branch (agree_statements calls scope returns Value.proper_null consequence placedYes)
      (agree_statements calls scope returns Value.proper_null alternative placedNo)
  | .function parameters body, placed => by
    unfold Expression.WellPlaced at placed
    unfold Raising.expression expression
    refine agree_step (keeps_note trivial) fun _ _ => ?_
    exact agree_capture scope parameters placed returns
  | .call callee given, placed => by
    unfold Expression.WellPlaced at placed
    unfold Raising.expression expression
    refine agree_step (keeps_note trivial) fun _ _ => ?_
    refine (agree_expression calls scope false callee placed.1).bind_plain fun value holds => ?_
    refine agree_step (keeps_note holds) fun _ _ => ?_
    refine (agree_arguments calls scope given placed.2).bind_plain fun values hold => ?_
    exact (agree_apply calls holds hold).loosen

theorem agree_arguments (calls : CallsAgree calling calling') (scope : ScopeId) :
    ∀ pieces, ArgumentsWellPlaced pieces →
      Agree none (fun values => ∀ value ∈ values, value.Proper)
        (Raising.arguments calling scope pieces) (arguments calling' scope pieces)
  | [], _ => by
    unfold Raising.arguments arguments
    exact agree_pure fun value member => nomatch member
  | first :: rest, placed => by
    unfold ArgumentsWellPlaced at placed
    unfold Raising.arguments arguments
    refine (agree_expression calls scope false first placed.1).bind_plain fun value holds => ?_
    refine (agree_arguments calls scope rest placed.2).bind_plain fun values hold => ?_
    exact agree_pure (List.forall_mem_cons.mpr ⟨holds, hold⟩)

theorem agree_statement (calls : CallsAgree calling calling') (scope : ScopeId)
    (returns : Bool) : ∀ piece, piece.WellPlaced returns →
      AgreeOnValue returns (Raising.statement calling scope piece) (statement calling' scope piece)
  | .binding name value, placed => by
    unfold Statement.WellPlaced at placed
    unfold Raising.statement statement
    refine agree_step keeps_look fun raised _ => agree_branch (agree_fail _) ?_
    refine agree_step (keeps_note trivial) fun _ _ => ?_
    refine (agree_expression calls scope false value placed).bind_plain fun found holds => ?_
    exact agree_step (keeps_bindName scope name holds) fun _ _ => agree_pure trivial
  | .returning none, placed => by
    unfold Statement.WellPlaced at placed
    subst placed
    unfold Raising.statement statement
    refine agree_step keeps_look fun raised _ => agree_branch (agree_fail _) ?_
    refine agree_step (keeps_note trivial) fun _ _ => ?_
    refine agree_step (keeps_note trivial) fun _ _ => ?_
    exact fun _ proper => .returning rfl trivial proper
  | .returning (some value), placed => by
    unfold Statement.WellPlaced at placed
    obtain ⟨rfl, placed⟩ := placed
    unfold Raising.statement statement
    refine agree_step keeps_look fun raised _ => agree_branch (agree_fail _) ?_
    refine agree_step (keeps_note trivial) fun _ _ => ?_
    refine (agree_expression calls scope false value placed).bind_plain fun found holds => ?_
    refine agree_step (keeps_note holds) fun _ _ => ?_
    exact fun _ proper => .returning rfl holds proper
  | .expression value, placed => by
    unfold Statement.WellPlaced at placed
    unfold Raising.statement statement
    refine agree_step keeps_look fun raised _ => agree_branch (agree_fail _) ?_
    refine agree_step (keeps_note trivial) fun _ _ => ?_
    exact agree_expression calls scope returns value placed

theorem agree_statements (calls : CallsAgree calling calling') (scope : ScopeId)
    (returns : Bool) {latest : Value} (proper : latest.Proper) : ∀ pieces,
      StatementsWellPlaced returns pieces →
        AgreeOnValue returns (Raising.statements calling scope latest pieces)
          (statements calling' scope latest pieces)
  | [], _ => by
    unfold Raising.statements statements
    exact agree_pure proper
  | first :: rest, placed => by
    unfold StatementsWellPlaced at placed
    unfold Raising.statements statements
    refine (agree_statement calls scope returns first placed.1).bind (fun value holds => ?_) ?_
    · cases value with
      | returned value => cases holds
      | _ => exact agree_statements calls scope returns holds rest placed.2
    · intro travels allowed
      cases returns <;> cases allowed
      exact ⟨.returned, rfl, fun _ => rfl⟩

end

/-- Calls agree at every depth. -/
theorem agree_call (depth : Nat) : CallsAgree (Raising.call depth) (call depth) := by
  induction depth with
  | zero => exact fun _ _ _ _ _ _ => .nothing
  | succ depth inductionHypothesis =>
    intro closure values placed hold
    refine agree_step (keeps_enclose closure.scope) fun scope _ => ?_
    refine agree_step (keeps_bindNames scope closure.parameters hold) fun _ _ => ?_
    exact agree_caught
      (agree_statements inductionHypothesis scope true Value.proper_null closure.body placed)

end Leaving

/-- A program whose returns are well placed comes to what it comes to with exits. -/
theorem Program.agrees_runRaising {program : Program} (placed : program.WellPlaced) (depth : Nat)
    (scope : ScopeId) {machine : Machine} (proper : machine.Proper) :
    program.runRaising depth scope machine = program.runLeaving depth scope machine ∧
      ∀ completion final, program.runLeaving depth scope machine = some (completion, final) →
        final.Proper := by
  have agreed := Leaving.agree_statements (Leaving.agree_call depth) scope true
    Value.proper_null program.statements placed machine proper
  unfold Program.runRaising Program.runLeaving
  show (Option.bind _ _ = Option.bind _ _) ∧ ∀ completion final, Option.bind _ _ = _ → _
  unfold ExceptT.run
  generalize Raising.statements _ scope .null program.statements machine = left at agreed ⊢
  generalize Leaving.statements _ scope .null program.statements machine = right at agreed ⊢
  cases agreed with
  | nothing =>
    refine ⟨rfl, fun completion final ended => ?_⟩
    cases ended
  | @value result final holds still =>
    refine ⟨?_, fun completion final ended => ?_⟩
    · cases result with
      | returned value => cases holds
      | error fault => cases holds
      | _ => rfl
    · cases ended
      exact still
  | returning allowed holds still =>
    cases allowed
    refine ⟨rfl, fun completion final ended => ?_⟩
    cases ended
    exact still
  | failing still =>
    refine ⟨rfl, fun completion final ended => ?_⟩
    cases ended
    exact still

/-- In a program whose returns are well placed, returned values and errors that travel among the
others come to what exits come to, from every store in which only proper values are bound. It stays
so, and only proper values are ever used as operands, passed as arguments, bound and returned. -/
theorem returns_are_exits {program : Program} {store : Store} (placed : program.WellPlaced)
    (bound : store.Binds Value.Proper) (depth : Nat) (scope : ScopeId) (signal : Option Signal) :
    program.run depth scope ⟨store, signal, none⟩ =
        program.runLeaving depth scope ⟨store, signal, none⟩ ∧
      ∀ completion final, program.run depth scope ⟨store, signal, none⟩ = some (completion, final) →
        final.store.Binds Value.Proper ∧ ∃ events,
          program.run depth scope ⟨store, signal, some []⟩ =
            some (completion, { final with journal := some events }) ∧
          ∀ event ∈ events, event.Proper := by
  have unobserved := Machine.unfailing_unobserved store signal
  have unfailing := Machine.unfailing_start store signal
  have silent : Machine.Proper ⟨store, signal, none⟩ := ⟨bound, fun events kept => nomatch kept⟩
  have proper : Machine.Proper ⟨store, signal, some []⟩ := by
    refine ⟨bound, fun events kept event member => ?_⟩
    cases kept
    cases member
  constructor
  · rw [(program.agrees_run depth scope unobserved).1]
    exact (Program.agrees_runRaising placed depth scope silent).1
  · intro completion final ended
    obtain ⟨events, observed⟩ := program.run_journal depth scope ended
    have leaves := observed
    rw [(program.agrees_run depth scope unfailing).1,
      (Program.agrees_runRaising placed depth scope proper).1] at leaves
    have still := (Program.agrees_runRaising placed depth scope proper).2 _ _ leaves
    exact ⟨still.store, events, observed, still.journal events rfl⟩

/-- A call that returns early, from a conditional in its body. -/
theorem returns_are_exits_early :
    let body : List Statement := [
      .expression (.conditional (.identifier "x") [.returning (some (.identifier "x"))] none),
      .expression (.integer 2)]
    let program : Program := ⟨[.expression (.call (.function ["x"] body) [.identifier "y"])]⟩
    let store : Store := ⟨#[⟨[("y", .boolean true)], none⟩], 0⟩
    program.WellPlaced ∧ store.Binds Value.Proper ∧
      program.run 1 0 ⟨store, none, none⟩ = program.runLeaving 1 0 ⟨store, none, none⟩ := by
  intro body program store
  have placed : program.WellPlaced := by
    simp [program, body, Program.WellPlaced, StatementsWellPlaced, Statement.WellPlaced,
      Expression.WellPlaced, ArgumentsWellPlaced]
  have bound : store.Binds Value.Proper := by
    intro scope found present binding member
    match scope with
    | 0 =>
      cases present
      obtain rfl := List.mem_singleton.mp member
      exact trivial
    | scope + 1 => cases present
  exact ⟨placed, bound, (returns_are_exits placed bound 1 0 none).1⟩

end Monkey
