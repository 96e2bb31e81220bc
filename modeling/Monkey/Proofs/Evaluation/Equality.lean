/-
This file is about the equality of values. It is an equivalence, with returned
values compared by what is in them and errors by their message. Identity is finer
only in that it never holds of returned values and errors.

Two functions are equal if they have the same number, whatever else they are. But
in all that evaluations lead to, whether values are bound, passed on, captured or
returned, functions have the same number only if the same evaluation of the same
function literal made them, and then they are the same in every respect. An
evaluation of a function literal makes a function that is different from all that
are there.
-/

import Monkey.Proofs.Evaluation.Making

namespace Monkey

/-! ### Laws of equality -/

namespace Value

variable {left middle right value : Value}

/-- Beneath returned values, equality is identity, except that errors are equal by their message. -/
theorem isEqual_self (value : Value) : value.isEqual value = true := by
  induction value with
  | returned value inductionHypothesis => exact inductionHypothesis
  | integer | boolean | function | error => exact beq_self_eq_true _
  | null => rfl

theorem isIdentical_comm (left right : Value) : left.isIdentical right = right.isIdentical left := by
  cases left <;> cases right <;> first | rfl | exact BEq.comm

theorem isEqual_comm (left right : Value) : left.isEqual right = right.isEqual left := by
  induction left generalizing right with
  | returned left inductionHypothesis =>
    cases right with
    | returned right => exact inductionHypothesis right
    | _ => rfl
  | _ => cases right <;> first | rfl | exact BEq.comm

theorem isIdentical_trans (one : left.isIdentical middle = true)
    (other : middle.isIdentical right = true) : left.isIdentical right = true := by
  cases left <;> cases middle <;> cases right <;> simp_all [isIdentical]

theorem isEqual_of_isIdentical (identical : left.isIdentical right = true) :
    left.isEqual right = true := by
  cases left <;> cases right <;> first | exact identical | cases identical

theorem isEqual_trans (one : left.isEqual middle = true) (other : middle.isEqual right = true) :
    left.isEqual right = true := by
  induction left generalizing middle right with
  | returned left inductionHypothesis =>
    cases middle with
    | returned middle =>
      cases right with
      | returned right => exact inductionHypothesis one other
      | _ => cases other
    | _ => cases one
  | _ => cases middle <;> cases right <;> simp_all [isEqual, isIdentical]

theorem isIdentical_self_iff : value.isIdentical value = false ↔
    (∃ inner, value = .returned inner) ∨ ∃ fault, value = .error fault := by
  cases value <;> simp [isIdentical]

/-- Functions are told apart by their numbers alone. -/
theorem isEqual_function_iff {first second : Closure} :
    (function first).isEqual (function second) = true ↔ first.identity = second.identity :=
  beq_iff_eq

end Value

/-! ### What evaluations lead to -/

/-- A store that evaluations can lead to, with what has happened, the latest first, and what the
evaluations came to. The journal is kept all along, which changes nothing else of a run. -/
inductive Reached : Store → List Event → List Value → Prop where
  | empty : Reached .empty [] []
  | create {store : Store} {events : List Event} {results : List Value}
      (before : Reached store events results) : Reached store.create.2 events results
  | enclose {store : Store} {events : List Event} {results : List Value} {outer : ScopeId}
      (before : Reached store events results) (present : outer < store.scopes.size) :
    Reached (store.enclose outer).2 events results
  | evaluate {store final : Store} {events events' : List Event} {results : List Value}
      {program : Program} {depth : Nat} {scope : ScopeId} {signal left : Option Signal}
      {completion : Completion} (before : Reached store events results)
      (present : scope < store.scopes.size)
      (ended : program.run depth scope ⟨store, signal, some events⟩ =
        some (completion, ⟨final, left, some events'⟩)) :
    Reached final events' (completion.value :: results)

/-- The values that an event tells of. -/
def Event.values : Event → List Value
  | .operand value | .leaving value | .binding _ _ value => [value]
  | .application callee arguments => callee :: arguments
  | _ => []

theorem Event.Carries.values {Holds : Value → Prop} {event : Event}
    (carries : event.Carries Holds) : ∀ value ∈ event.values, Holds value := by
  cases event with
  | operand value | leaving value | binding _ _ value =>
    exact List.forall_mem_singleton.mpr carries
  | application callee arguments => exact List.forall_mem_cons.mpr carries
  | _ => exact List.forall_mem_nil _

/-- The values that there are: bound in any scope, told of by an event, come to by an evaluation,
or inside of another one. -/
inductive Present (store : Store) (events : List Event) (results : List Value) : Value → Prop where
  | bound {scope : ScopeId} {found : Scope} {name : String} {value : Value}
      (there : store.scopes[scope]? = some found) (member : (name, value) ∈ found.bindings) :
    Present store events results value
  | told {event : Event} {value : Value} (member : event ∈ events)
      (inside : value ∈ event.values) : Present store events results value
  | result {value : Value} (member : value ∈ results) : Present store events results value
  | inside {value : Value} (outer : Present store events results (.returned value)) :
    Present store events results value

variable {store : Store} {events : List Event} {results : List Value} {made : List Closure}

/-- The functions that were made can be listed. -/
theorem Reached.ledger (reached : Reached store events results) :
    ∃ made, Ledger made store events ∧ ∀ value ∈ results, value.MadeIn made := by
  induction reached with
  | empty => exact ⟨[], .empty, List.forall_mem_nil _⟩
  | create _ inductionHypothesis =>
    obtain ⟨made, ledger, known⟩ := inductionHypothesis
    exact ⟨made, ledger.add none, known⟩
  | @enclose _ _ _ outer _ _ inductionHypothesis =>
    obtain ⟨made, ledger, known⟩ := inductionHypothesis
    exact ⟨made, ledger.add (some outer), known⟩
  | evaluate _ _ ended inductionHypothesis =>
    obtain ⟨made, ledger, known⟩ := inductionHypothesis
    obtain ⟨wider, _, more, kept, after, came⟩ := Conduct.making_program ledger ended
    cases kept
    exact ⟨wider, after, List.forall_mem_cons.mpr
      ⟨came, fun value member => (known value member).widen more⟩⟩

/-- What is seen from a scope is present. -/
theorem Present.get? {scope : ScopeId} {name : String} {value : Value}
    (found : store.get? scope name = some value) : Present store events results value := by
  have binds : store.Binds (Present store events results) :=
    fun _ _ there _ member => .bound there member
  exact binds.get? found

theorem Present.madeIn (ledger : Ledger made store events)
    (known : ∀ value ∈ results, value.MadeIn made) {value : Value}
    (present : Present store events results value) : value.MadeIn made := by
  induction present with
  | bound there member => exact ledger.bound _ _ there _ member
  | told member inside =>
    exact ((ledger.told.carries member).values _ inside).widen (List.take_prefix _ _)
  | result member => exact known _ member
  | inside _ inductionHypothesis => exact inductionHypothesis

/-! ### Functions -/

/-- The functions in a list are those that the evaluations of function literals came to, the first
one first, and the functions that are present are told apart by them. -/
structure Origins (made : List Closure) (store : Store) (events : List Event)
    (results : List Value) : Prop where
  /-- Each function was made of the literal that was evaluated. -/
  literals : made.map Closure.literal = literalsOf events
  /-- Functions are equal exactly if one evaluation came to both. -/
  equal_iff : ∀ first second, Present store events results (.function first) →
    Present store events results (.function second) →
      ((Value.function first).isEqual (.function second) = true ↔
        ∃ number : Nat, made[number]? = some first ∧ made[number]? = some second)
  same : ∀ first second, Present store events results (.function first) →
    Present store events results (.function second) →
      (Value.function first).isEqual (.function second) = true →
        second.parameters = first.parameters ∧ second.body = first.body ∧
          second.scope = first.scope
  /-- When a function literal was evaluated, the function was different from all that there had
  been. -/
  new : ∀ later parameters body earlier,
    events = later ++ .expression (.function parameters body) :: earlier →
      ∃ closure, made[(literalsOf earlier).length]? = some closure ∧
        closure.literal = .function parameters body ∧
        ∀ event ∈ earlier, ∀ value ∈ event.values, ∀ other ∈ value.closure?,
          (Value.function closure).isEqual (.function other) = false

namespace Ledger

/-- A function is different from those that were made before. -/
theorem isEqual_eq_false (ledger : Ledger made store events) {number : Nat}
    {closure other : Closure} (there : made[number]? = some closure)
    (before : (made.take number)[other.identity]? = some other) :
    (Value.function closure).isEqual (.function other) = false := by
  have inside := (List.getElem?_eq_some_iff.mp before).1
  have less := Nat.lt_of_lt_of_le inside (List.length_take_le _ _)
  rw [← Bool.not_eq_true, Value.isEqual_function_iff, ledger.numbered number closure there]
  exact Ne.symm (Nat.ne_of_lt less)

/-- The function under a number was made of the literal that was evaluated then. -/
theorem exists_literal {later earlier : List Event} {event : Event} {literal : Expression}
    (ledger : Ledger made store (later ++ event :: earlier))
    (starts : event.literal? = some literal) :
    ∃ closure, made[(literalsOf earlier).length]? = some closure ∧ closure.literal = literal := by
  have there : (made.map Closure.literal)[(literalsOf earlier).length]? = some literal := by
    rw [ledger.literals, literalsOf_append, literalsOf, starts, List.append_assoc,
      Option.toList_some, List.singleton_append, List.getElem?_append_right (Nat.le_refl _),
      Nat.sub_self, List.getElem?_cons_zero]
  rw [List.getElem?_map] at there
  exact Option.map_eq_some_iff.mp there

theorem origins (ledger : Ledger made store events) (known : ∀ value ∈ results, value.MadeIn made) :
    Origins made store events results where
  literals := ledger.literals
  equal_iff first second one other := by
    have there := one.madeIn ledger known first rfl
    have there' := other.madeIn ledger known second rfl
    rw [Value.isEqual_function_iff]
    constructor
    · intro same
      exact ⟨first.identity, there, same ▸ there'⟩
    · rintro ⟨number, here, here'⟩
      rw [ledger.numbered number first here, ledger.numbered number second here']
  same first second one other equal := by
    have there := one.madeIn ledger known first rfl
    have there' := other.madeIn ledger known second rfl
    rw [← Value.isEqual_function_iff.mp equal, there] at there'
    cases there'
    exact ⟨rfl, rfl, rfl⟩
  new := by
    rintro later parameters body earlier rfl
    obtain ⟨closure, there, literal⟩ := ledger.exists_literal rfl
    refine ⟨closure, there, literal, fun event member value inside other function => ?_⟩
    have told := ledger.told.of_append.2.carries member
    exact ledger.isEqual_eq_false there (told.values value inside other function)

end Ledger

/-- Whatever evaluations lead to, equality is an equivalence, identity is symmetric and transitive
and finer, and only returned values and errors are not identical to themselves. Functions are equal
exactly if the same evaluation of a function literal came to both, and are the same then; each such
evaluation comes to a function that is different from all that there are. -/
theorem equality_is_sound (reached : Reached store events results) :
    Equivalence (fun left right : Value => left.isEqual right = true) ∧
    (∀ left right : Value, left.isIdentical right = true → right.isIdentical left = true) ∧
    (∀ left middle right : Value, left.isIdentical middle = true →
      middle.isIdentical right = true → left.isIdentical right = true) ∧
    (∀ left right : Value, left.isIdentical right = true → left.isEqual right = true) ∧
    (∀ value : Value, value.isIdentical value = false ↔
      (∃ inner, value = .returned inner) ∨ ∃ fault, value = .error fault) ∧
    ∃ made, Origins made store events results ∧
      ∀ calling scope parameters body signal, ∃ closure after,
        Evaluation.expression calling scope (.function parameters body)
            ⟨store, signal, some events⟩ =
          some (.function closure,
            ⟨after, signal, some (.expression (.function parameters body) :: events)⟩) ∧
        closure.literal = .function parameters body ∧ closure.scope = scope ∧
        (∀ other, Present store events results (.function other) →
          (Value.function closure).isEqual (.function other) = false) ∧
        Origins (made ++ [closure]) after (.expression (.function parameters body) :: events)
          (.function closure :: results) := by
  refine ⟨⟨Value.isEqual_self, ?_, Value.isEqual_trans⟩, ?_, ?_, ?_, ?_, ?_⟩
  · intro left right equal
    rw [Value.isEqual_comm, equal]
  · intro left right identical
    rw [Value.isIdentical_comm, identical]
  · exact fun _ _ _ => Value.isIdentical_trans
  · exact fun _ _ => Value.isEqual_of_isIdentical
  · exact fun _ => Value.isIdentical_self_iff
  obtain ⟨made, ledger, known⟩ := reached.ledger
  refine ⟨made, ledger.origins known, fun calling scope parameters body signal => ?_⟩
  let closure : Closure := ⟨store.closures, parameters, body, scope⟩
  have after := ledger.make parameters body scope
  have last : (made ++ [closure])[made.length]? = some closure := List.getElem?_concat_length
  have widened (value) (member : value ∈ results) : value.MadeIn (made ++ [closure]) :=
    (known value member).widen (List.prefix_append _ _)
  refine ⟨closure, store.countClosure.2, ?_, rfl, rfl, fun other present => ?_, ?_⟩
  · unfold Evaluation.expression
    rfl
  · refine after.isEqual_eq_false last ?_
    rw [List.take_left]
    exact present.madeIn ledger known other rfl
  · refine after.origins (List.forall_mem_cons.mpr ⟨?_, widened⟩)
    rintro _ ⟨⟩
    show (made ++ [closure])[store.closures]? = some closure
    rw [← ledger.counted, last]

/-- A function is bound, returned into a binding and passed through a call, and is still the same;
another one of the same literal is not. -/
theorem equality_is_sound_copied :
    ∃ (store : Store) (events : List Event) (first second : Closure),
      Reached store events [.function first] ∧
      store.get? 0 "r" = some (.returned (.function first)) ∧
      store.get? 0 "h" = some (.function second) ∧ second.literal = first.literal ∧
      ∃ made, Origins made store events [.function first] ∧
        ∃ number : Nat, made[number]? = some first ∧ made[number]? ≠ some second := by
  let literal : Expression := .function ["x"] [.expression (.identifier "x")]
  let program : Program := ⟨[.binding "f" literal,
    .binding "r" (.conditional (.boolean true) [.returning (some (.identifier "f"))] none),
    .binding "h" literal, .expression (.call (.identifier "f") [.identifier "r"])]⟩
  have ends : ∃ first second final events,
      program.run 1 0 ⟨Store.empty.create.2, none, some []⟩ =
          some (.finished (.function first), ⟨final, none, some events⟩) ∧
        final.get? 0 "r" = some (.returned (.function first)) ∧
        final.get? 0 "h" = some (.function second) ∧ second.literal = first.literal ∧
        (Value.function first).isEqual (.function second) = false := by
    unfold program literal
    exact ⟨_, _, _, _, rfl, rfl, rfl, rfl, rfl⟩
  obtain ⟨first, second, final, events, ended, returned, other, same, different⟩ := ends
  have reached : Reached final events [.function first] :=
    .evaluate (.create .empty) Nat.one_pos ended
  obtain ⟨_, _, _, _, _, made, origins, _⟩ := equality_is_sound reached
  refine ⟨final, events, first, second, reached, returned, other, same, made, origins, ?_⟩
  have there : Present final events [.function first] (.function first) :=
    .result List.mem_cons_self
  have there' : Present final events [.function first] (.function second) := .get? other
  obtain ⟨number, found, _⟩ :=
    (origins.equal_iff first first there there).mp (Value.isEqual_self _)
  refine ⟨number, found, fun found' => ?_⟩
  rw [(origins.equal_iff first second there there').mpr ⟨number, found, found'⟩] at different
  cases different

end Monkey
