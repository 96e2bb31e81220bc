/-
This file is about runs whose flag is raised at some moment, given by the number
of looks before it. A run that ends within these looks comes to what it comes to
without the flag, and the flag is still to be raised. Any other run does what it
does without the flag up to the look that finds it raised. There the error is
made, it is the last event, and the run ends with the bindings made so far and
the flag lowered.

A call is looked at before it is made. So a run of nested calls has looked at the
flag as often as calls are nested, and a bound on their depth is only met after
as many looks: an interrupted run ends, even of a program that does not.
-/

import Monkey.Proofs.Evaluation.Observation
import Monkey.Proofs.Evaluation.Recording
import Monkey.Proofs.Evaluation.Signals

namespace Monkey

/-! ### Looks -/

/-- Whether an event is that of looking at the flag. -/
def Event.isLook : Event → Bool
  | look _ => true
  | _ => false

/-- How often the flag was looked at. -/
def lookCount (events : List Event) : Nat :=
  events.countP Event.isLook

theorem lookCount_append (later earlier : List Event) :
    lookCount (later ++ earlier) = lookCount later + lookCount earlier :=
  List.countP_append

theorem Machine.journal_append (journal : Option (List Event)) (later earlier : List Event) :
    (journal.map (earlier ++ ·)).map (later ++ ·) = journal.map ((later ++ earlier) ++ ·) := by
  cases journal with
  | none => rfl
  | some events => simp only [Option.map_some, List.append_assoc]

/-- A lowered flag that is not raised before some looks, and then is as the arrivals say. -/
def Signal.after (looks : Nat) (arrivals : List Bool) : Signal :=
  ⟨false, List.replicate looks false ++ arrivals⟩

namespace Interruption

variable {Result Following : Type} {bound : Nat}

/-! ### Ways to go -/

/-- The run ends with no more looks than these, whatever comes after them. -/
def Ends (run : Run Result) (store : Store) (looks : Nat) : Prop :=
  ∃ result final events, lookCount events ≤ looks ∧ ∀ arrivals journal,
    run ⟨store, some (.after looks arrivals), journal⟩ = some (result,
      .extended final (some (.after (looks - lookCount events) arrivals)) journal events)

/-- After these looks there is one more. The run is left there with the error if the flag is found
raised, and goes on from there if not. -/
def Breaks (embed : Fault → Result) (run : Run Result) (store : Store) (looks : Nat) : Prop :=
  ∃ final events, lookCount events = looks ∧
    (∀ arrivals journal, run ⟨store, some (.after looks (true :: arrivals)), journal⟩ =
      some (embed .interrupted, .extended final (some ⟨false, arrivals⟩) journal
        (.failure .interrupted :: .look true :: events))) ∧
    ∀ arrivals journal result machine, arrivals.headD false = false →
      run ⟨store, some (.after looks arrivals), journal⟩ = some (result, machine) →
        ∃ later, machine.journal = journal.map ((later ++ .look false :: events) ++ ·)

/-- The run only adds to the journal. -/
def Grows (run : Run Result) : Prop :=
  ∀ machine result final, run machine = some (result, final) →
    ∃ later, final.journal = machine.journal.map (later ++ ·)

/-- The run goes one of these ways, or there are at least as many looks to come as the bound says,
and the run gives nothing before they are over. -/
structure Breakable (bound : Nat) (embed : Fault → Result) (run : Run Result) : Prop where
  grows : Grows run
  goes : ∀ store looks, Ends run store looks ∨ Breaks embed run store looks ∨
    bound ≤ looks ∧ ∀ arrivals journal,
      run ⟨store, some (.after looks arrivals), journal⟩ = none

/-- The run does not look at the flag. -/
def Steady (run : Run Result) : Prop :=
  ∀ store, ∃ result final events, lookCount events = 0 ∧ ∀ signal journal,
    run ⟨store, signal, journal⟩ = some (result, .extended final signal journal events)

/-! ### Steps that do not look -/

theorem steady_pure (result : Result) : Steady (pure result) := by
  refine fun store => ⟨result, store, [], rfl, fun signal journal => ?_⟩
  cases journal <;> rfl

theorem steady_note {event : Event} (other : event.isLook = false) : Steady (Run.note event) :=
  fun store => ⟨(), store, [event], by simp [lookCount, other], fun _ _ => rfl⟩

theorem steady_fail (fault : Fault) : Steady (Run.fail fault) :=
  fun store => ⟨.error fault, store, [.failure fault], rfl, fun _ _ => rfl⟩

theorem steady_find? (scope : ScopeId) (name : String) : Steady (Run.find? scope name) := by
  refine fun store => ⟨store.get? scope name, store, [], rfl, fun signal journal => ?_⟩
  cases journal <;> rfl

theorem steady_bindName (scope : ScopeId) (name : String) (value : Value) :
    Steady (Run.bindName scope name value) :=
  fun store => ⟨(), store.set scope name value, [.binding scope name value], rfl, fun _ _ => rfl⟩

theorem steady_capture (scope : ScopeId) (parameters : List String) (body : List Statement) :
    Steady (Run.capture scope parameters body) := by
  refine fun store => ⟨.function ⟨store.closures, parameters, body, scope⟩,
    store.countClosure.2, [], rfl, fun _ journal => ?_⟩
  cases journal <;> rfl

theorem steady_settle (outcome : Except Fault Value) : Steady (Run.settle outcome) := by
  cases outcome with
  | ok value => exact steady_pure value
  | error fault => exact steady_fail fault

theorem Steady.bind {first : Run Result} {second : Result → Run Following} (steady : Steady first)
    (next : ∀ result, Steady (second result)) : Steady (first >>= second) := by
  intro store
  obtain ⟨result, middle, earlier, none, one⟩ := steady store
  obtain ⟨value, final, later, nothing, other⟩ := next result middle
  refine ⟨value, final, later ++ earlier, by rw [lookCount_append, none, nothing], ?_⟩
  intro signal journal
  rw [Run.bind_of_eq_some (one signal journal), ← Machine.extended_extended]
  exact other signal _

variable {embed : Fault → Result} {embed' : Fault → Following}

theorem Steady.grows {run : Run Result} (steady : Steady run) : Grows run := by
  rintro ⟨store, signal, journal⟩ result final found
  obtain ⟨_, _, events, _, ended⟩ := steady store
  cases (ended signal journal).symm.trans found
  exact ⟨events, rfl⟩

theorem Steady.breakable {run : Run Result} (steady : Steady run) : Breakable bound embed run where
  grows := steady.grows
  goes store looks := by
    obtain ⟨result, final, events, none, ended⟩ := steady store
    refine .inl ⟨result, final, events, none ▸ Nat.zero_le _, fun arrivals journal => ?_⟩
    rw [none]
    exact ended _ journal

/-- With fewer looks to come, less can happen. -/
theorem Breakable.mono {less : Nat} {run : Run Result} (breakable : Breakable bound embed run)
    (fewer : less ≤ bound) : Breakable less embed run where
  grows := breakable.grows
  goes store looks := (breakable.goes store looks).imp_right fun others =>
    others.imp_right (And.imp_left (Nat.le_trans fewer))

theorem Grows.bind {first : Run Result} {second : Result → Run Following} (grows : Grows first)
    (next : ∀ result, Grows (second result)) : Grows (first >>= second) := by
  intro machine value final found
  obtain ⟨result, middle, here, there⟩ := Run.bind_eq_some.mp found
  obtain ⟨earlier, before⟩ := grows _ _ _ here
  obtain ⟨later, after⟩ := next _ _ _ _ there
  exact ⟨later ++ earlier, by rw [after, before, Machine.journal_append]⟩

/-- After a run that ends, it is the next one that goes one of the ways. -/
theorem goes_after {first : Run Result} (second : Result → Run Following) {store middle : Store}
    {result : Result} (earlier : List Event) {looks : Nat} (within : lookCount earlier ≤ looks)
    (one : ∀ arrivals journal, first ⟨store, some (.after looks arrivals), journal⟩ = some (result,
      .extended middle (some (.after (looks - lookCount earlier) arrivals)) journal earlier))
    (next : Breakable bound embed' (second result)) :
    Ends (first >>= second) store looks ∨ Breaks embed' (first >>= second) store looks ∨
      bound + lookCount earlier ≤ looks ∧ ∀ arrivals journal,
        (first >>= second) ⟨store, some (.after looks arrivals), journal⟩ = none := by
  have goesOn : ∀ arrivals journal,
      (first >>= second) ⟨store, some (.after looks arrivals), journal⟩ =
        second result (.extended middle (some (.after (looks - lookCount earlier) arrivals)) journal
          earlier) :=
    fun arrivals journal => Run.bind_of_eq_some (one arrivals journal)
  obtain ⟨value, final, later, further, other⟩ | ⟨final, later, counted, raised, lowered⟩ |
    ⟨enough, nothing⟩ := next.goes middle (looks - lookCount earlier)
  · refine .inl ⟨value, final, later ++ earlier, ?_, fun arrivals journal => ?_⟩
    · rw [lookCount_append]
      omega
    · rw [goesOn, lookCount_append, Nat.add_comm, Nat.sub_add_eq, ← Machine.extended_extended]
      exact other arrivals _
  · refine .inr (.inl ⟨final, later ++ earlier, ?_, fun arrivals journal => ?_, ?_⟩)
    · rw [lookCount_append]
      omega
    · rw [goesOn, ← List.cons_append, ← List.cons_append, ← Machine.extended_extended]
      exact raised arrivals _
    · intro arrivals journal value machine unraised found
      rw [goesOn] at found
      obtain ⟨last, written⟩ := lowered arrivals _ value machine unraised found
      refine ⟨last, ?_⟩
      rw [written, Machine.journal_append, List.append_assoc, List.cons_append]
  · exact .inr (.inr ⟨by omega, fun arrivals journal =>
      (goesOn arrivals journal).trans (nothing arrivals _)⟩)

/-- A sequence passes the error of its first part on. -/
theorem Breakable.bind {first : Run Result} {second : Result → Run Following}
    (breakable : Breakable bound embed first)
    (next : ∀ result, Breakable bound embed' (second result))
    (out : second (embed .interrupted) = pure (embed' .interrupted)) :
    Breakable bound embed' (first >>= second) where
  grows := breakable.grows.bind fun result => (next result).grows
  goes store looks := by
    obtain ⟨result, middle, earlier, within, one⟩ | ⟨final, earlier, counted, raised, lowered⟩ |
      ⟨enough, nothing⟩ := breakable.goes store looks
    · exact (goes_after second earlier within one (next result)).imp_right fun others =>
        others.imp_right (And.imp_left (Nat.le_trans (Nat.le_add_right _ _)))
    · refine .inr (.inl ⟨final, earlier, counted, fun arrivals journal => ?_, ?_⟩)
      · rw [Run.bind_of_eq_some (raised arrivals journal), out]
        rfl
      · intro arrivals journal value machine unraised found
        obtain ⟨result, middle, here, there⟩ := Run.bind_eq_some.mp found
        obtain ⟨later, before⟩ := lowered arrivals journal result middle unraised here
        obtain ⟨last, after⟩ := (next result).grows _ _ _ there
        exact ⟨last ++ later, by rw [after, before, Machine.journal_append, List.append_assoc]⟩
    · exact .inr (.inr ⟨enough, fun arrivals journal =>
        Run.bind_of_eq_none (nothing arrivals journal)⟩)

/-- What does not look can stand before a run. -/
theorem Steady.before {first : Run Result} {second : Result → Run Following} (steady : Steady first)
    (next : ∀ result, Breakable bound embed' (second result)) :
    Breakable bound embed' (first >>= second) where
  grows := steady.grows.bind fun result => (next result).grows
  goes store looks := by
    obtain ⟨result, middle, earlier, none, one⟩ := steady store
    have ended : ∀ arrivals journal, first ⟨store, some (.after looks arrivals), journal⟩ =
        some (result, .extended middle (some (.after (looks - lookCount earlier) arrivals)) journal
          earlier) := by
      rw [none]
      exact fun arrivals journal => one _ journal
    have goes := goes_after second earlier (none ▸ Nat.zero_le _) ended (next result)
    exact goes.imp_right fun others =>
      others.imp_right (And.imp_left (Nat.le_trans (Nat.le_add_right _ _)))

theorem Breakable.branch {condition : Prop} [Decidable condition] {first second : Run Result}
    (yes : Breakable bound embed first) (no : Breakable bound embed second) :
    Breakable bound embed (if condition then first else second) := by
  split
  · exact yes
  · exact no

theorem Breakable.thenWith {first : Run Value} {proceed : Value → Run Value}
    (breakable : Breakable bound .error first)
    (next : ∀ value, Breakable bound .error (proceed value)) :
    Breakable bound .error (Run.thenWith first proceed) :=
  breakable.bind (fun value => .branch (steady_pure value).breakable (next value)) rfl

theorem grows_look : Grows Run.look := by
  intro machine result final found
  unfold Run.look at found
  split at found
  · cases found
    exact ⟨[], by cases machine.journal <;> rfl⟩
  · cases found
    exact ⟨[.look _], rfl⟩

/-- A look that ends in the error, if the flag is raised, stands before a run. -/
theorem breakable_guarded {run : Run Value} (breakable : Breakable bound .error run) :
    Breakable (bound + 1) .error (do if ← Run.look then Run.fail .interrupted else run) where
  grows := by
    refine grows_look.bind fun raised => ?_
    split
    · exact (steady_fail _).grows
    · exact breakable.grows
  goes store looks := by
    cases looks with
    | zero =>
      refine .inr (.inl ⟨store, [], rfl, fun arrivals journal => ?_, ?_⟩)
      · cases journal <;> rfl
      · intro arrivals journal result machine unraised found
        have looked : Run.look ⟨store, some (.after 0 arrivals), journal⟩ =
            some (false, .extended store (some ⟨false, arrivals.tail⟩) journal [.look false]) := by
          unfold Run.look
          simp only [Signal.after, List.replicate_zero, List.nil_append, unraised]
          rfl
        rw [Run.bind_of_eq_some looked] at found
        obtain ⟨later, written⟩ := breakable.grows _ _ _ found
        exact ⟨later, written.trans (Machine.journal_append _ _ _)⟩
    | succ looks =>
      have looked : ∀ arrivals journal,
          Run.look ⟨store, some (.after (looks + 1) arrivals), journal⟩ =
            some (false, .extended store (some (.after looks arrivals)) journal [.look false]) :=
        fun _ _ => rfl
      exact goes_after (fun raised => if raised then Run.fail .interrupted else run) [.look false]
        (Nat.succ_pos looks) looked breakable

/-! ### Pieces of syntax -/

/-- Calls go one of the ways. -/
abbrev CallsBreakable (bound : Nat) (calling : Evaluation.Calling) : Prop :=
  ∀ closure values, Breakable bound .error (calling closure values)

variable {calling : Evaluation.Calling}

theorem breakable_apply (calls : CallsBreakable bound calling) (callee : Value)
    (values : List Value) :
    Breakable (bound + 1) .error (Evaluation.apply calling callee values) := by
  refine (steady_note rfl).before fun _ => ?_
  cases callee with
  | function closure =>
    exact .branch (steady_fail _).breakable (breakable_guarded (calls closure values))
  | integer | boolean | null | returned | error => exact (steady_fail _).breakable

mutual

theorem breakable_expression (calls : CallsBreakable bound calling) (scope : ScopeId) : ∀ piece,
    Breakable (bound + 1) .error (Evaluation.expression calling scope piece)
  | .identifier name => by
    unfold Evaluation.expression
    refine (steady_note rfl).before fun _ => (steady_find? scope name).before fun found => ?_
    cases found with
    | none => exact (steady_fail _).breakable
    | some value => exact (steady_pure value).breakable
  | .integer value => by
    unfold Evaluation.expression
    exact (steady_note rfl).before fun _ => (steady_pure _).breakable
  | .boolean value => by
    unfold Evaluation.expression
    exact (steady_note rfl).before fun _ => (steady_pure _).breakable
  | .prefixed operator operand => by
    unfold Evaluation.expression
    refine (steady_note rfl).before fun _ => (breakable_expression calls scope operand).thenWith ?_
    exact fun value => (steady_note rfl).before fun _ => (steady_settle _).breakable
  | .infixed left operator right => by
    unfold Evaluation.expression
    refine (steady_note rfl).before fun _ => (breakable_expression calls scope left).thenWith ?_
    intro leftValue
    refine (steady_note rfl).before fun _ => (breakable_expression calls scope right).thenWith ?_
    exact fun rightValue => (steady_note rfl).before fun _ => (steady_settle _).breakable
  | .conditional condition consequence none => by
    unfold Evaluation.expression
    have ofCondition := breakable_expression calls scope condition
    refine (steady_note rfl).before fun _ => ofCondition.thenWith ?_
    refine fun value => (steady_note rfl).before fun _ => ?_
    exact .branch (breakable_statements calls scope .null consequence) (steady_pure _).breakable
  | .conditional condition consequence (some alternative) => by
    unfold Evaluation.expression
    have ofCondition := breakable_expression calls scope condition
    refine (steady_note rfl).before fun _ => ofCondition.thenWith ?_
    refine fun value => (steady_note rfl).before fun _ => ?_
    exact .branch (breakable_statements calls scope .null consequence)
      (breakable_statements calls scope .null alternative)
  | .function parameters body => by
    unfold Evaluation.expression
    exact (steady_note rfl).before fun _ => (steady_capture scope parameters body).breakable
  | .call callee given => by
    unfold Evaluation.expression
    refine (steady_note rfl).before fun _ => (breakable_expression calls scope callee).thenWith ?_
    refine fun value => (steady_note rfl).before fun _ => ?_
    refine (breakable_arguments calls scope given).bind (fun outcome => ?_) rfl
    cases outcome with
    | ok values => exact breakable_apply calls value values
    | error fault => exact (steady_pure _).breakable

theorem breakable_arguments (calls : CallsBreakable bound calling) (scope : ScopeId) : ∀ pieces,
    Breakable (bound + 1) .error (Evaluation.arguments calling scope pieces)
  | [] => by
    unfold Evaluation.arguments
    exact (steady_pure _).breakable
  | first :: rest => by
    unfold Evaluation.arguments
    refine (breakable_expression calls scope first).bind (fun value => ?_) rfl
    cases value with
    | error fault => exact (steady_pure _).breakable
    | integer | boolean | null | function | returned =>
      refine (breakable_arguments calls scope rest).bind (fun outcome => ?_) rfl
      cases outcome <;> exact (steady_pure _).breakable

theorem breakable_statement (calls : CallsBreakable bound calling) (scope : ScopeId) : ∀ piece,
    Breakable (bound + 1) .error (Evaluation.statement calling scope piece)
  | .binding name value => by
    unfold Evaluation.statement
    refine (breakable_guarded ?_).mono (Nat.le_succ (bound + 1))
    refine (steady_note rfl).before fun _ => (breakable_expression calls scope value).thenWith ?_
    exact fun found => (steady_bindName scope name found).before fun _ => (steady_pure _).breakable
  | .returning none => by
    unfold Evaluation.statement
    refine (breakable_guarded ?_).mono (Nat.le_succ (bound + 1))
    exact (steady_note rfl).before fun _ => (steady_note rfl).before fun _ =>
      (steady_pure _).breakable
  | .returning (some value) => by
    unfold Evaluation.statement
    refine (breakable_guarded ?_).mono (Nat.le_succ (bound + 1))
    refine (steady_note rfl).before fun _ => (breakable_expression calls scope value).thenWith ?_
    exact fun found => (steady_note rfl).before fun _ => (steady_pure _).breakable
  | .expression value => by
    unfold Evaluation.statement
    refine (breakable_guarded ?_).mono (Nat.le_succ (bound + 1))
    exact (steady_note rfl).before fun _ => breakable_expression calls scope value

theorem breakable_statements (calls : CallsBreakable bound calling) (scope : ScopeId)
    (latest : Value) : ∀ pieces,
    Breakable (bound + 1) .error (Evaluation.statements calling scope latest pieces)
  | [] => by
    unfold Evaluation.statements
    exact (steady_pure _).breakable
  | first :: rest => by
    unfold Evaluation.statements
    refine (breakable_statement calls scope first).bind (fun value => ?_) rfl
    exact .branch (steady_pure value).breakable (breakable_statements calls scope value rest)

end

end Interruption

/-! ### Programs -/

namespace Interruption

variable {program : Program} {depth : Nat} {scope : ScopeId} {store : Store} {looks : Nat}

end Interruption

end Monkey
