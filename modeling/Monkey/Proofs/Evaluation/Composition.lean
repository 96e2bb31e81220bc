/-
This file carries properties of single steps over to whole evaluations. Such a
property is about a run in a scope that may bind some names there, and it passes
from two runs to the one after the other. A call opens a scope of its own, and
what is bound in that is of no concern outside of it.

A property of this sort holds of the evaluation of every piece of syntax, with
the names that the `let` statements of the piece bind.
-/

import Monkey.Proofs.Evaluation.Running
import Mathlib.Data.List.Basic

namespace Monkey

/-! ### Names bound by syntax -/

mutual

/-- The names that `let` statements in an expression bind, outside of functions in it. -/
def Expression.boundNames : Expression → List String
  | .identifier _ | .integer _ | .boolean _ | .function _ _ => []
  | .prefixed _ operand => operand.boundNames
  | .infixed left _ right => left.boundNames ++ right.boundNames
  | .conditional condition consequence alternative =>
    condition.boundNames ++ (namesBoundBy consequence ++
      match alternative with
      | some statements => namesBoundBy statements
      | none => [])
  | .call callee given => callee.boundNames ++ namesBoundAmong given

/-- The names that expressions bind. -/
def namesBoundAmong : List Expression → List String
  | [] => []
  | first :: rest => first.boundNames ++ namesBoundAmong rest

/-- The names that a statement binds. -/
def Statement.boundNames : Statement → List String
  | .binding name value => name :: value.boundNames
  | .returning none => []
  | .returning (some value) => value.boundNames
  | .expression value => value.boundNames

/-- The names that statements bind. -/
def namesBoundBy : List Statement → List String
  | [] => []
  | first :: rest => first.boundNames ++ namesBoundBy rest

end

/-- Whether an event is that of binding a name. -/
def Event.isBinding : Event → Bool
  | binding _ _ _ => true
  | _ => false

/-! ### Properties of runs -/

/-- A property of runs in a scope with the names they may bind there, which holds of every step and
passes on to sequences. -/
structure Compositional (Holds : (Result : Type) → ScopeId → List String → Run Result → Prop) :
    Prop where
  pure : ∀ {Result : Type} {scope names} (value : Result), Holds Result scope names (pure value)
  bind : ∀ {Result Following : Type} {scope names} {first : Run Result}
    {second : Result → Run Following}, Holds Result scope names first →
      (∀ result, Holds Following scope names (second result)) →
        Holds Following scope names (first >>= second)
  widen : ∀ {Result : Type} {scope names wider} {run : Run Result}, Holds Result scope names run →
    names ⊆ wider → Holds Result scope wider run
  exhausted : ∀ {Result : Type} {scope names}, Holds Result scope names Run.exhausted
  note : ∀ {scope names} (event : Event), event.isBinding = false →
    Holds Unit scope names (Run.note event)
  look : ∀ {scope names}, Holds Bool scope names Run.look
  fail : ∀ {scope names} (fault : Fault), Holds Value scope names (Run.fail fault)
  find? : ∀ {scope names} (inner : ScopeId) (name : String),
    Holds (Option Value) scope names (Run.find? inner name)
  bindName : ∀ {scope names} {name : String} (value : Value), name ∈ names →
    Holds Unit scope names (Run.bindName scope name value)
  capture : ∀ {scope names} (inner : ScopeId) (parameters : List String) (body : List Statement),
    Holds Value scope names (Run.capture inner parameters body)
  /-- What happens in a scope that was just opened is hidden from every other scope. -/
  enclose : ∀ {Result : Type} {scope names} {second : ScopeId → Run Result} (inside : List String)
    (outer : ScopeId), (∀ inner, Holds Result inner inside (second inner)) →
      Holds Result scope names (Run.enclose outer >>= second)

/-- The property holds of whatever calls do, in every scope. -/
abbrev HoldsOfCalls (Holds : (Result : Type) → ScopeId → List String → Run Result → Prop)
    (calling : Evaluation.Calling) : Prop :=
  ∀ closure values scope, Holds Value scope [] (calling closure values)

namespace Compositional

variable {Holds : (Result : Type) → ScopeId → List String → Run Result → Prop}
  (holds : Compositional Holds) {Result : Type} {scope : ScopeId} {names : List String}

theorem branch {condition : Prop} [Decidable condition] {first second : Run Result}
    (yes : Holds Result scope names first) (no : Holds Result scope names second) :
    Holds Result scope names (if condition then first else second) := by
  split
  · exact yes
  · exact no

include holds

theorem settle (outcome : Except Fault Value) : Holds Value scope names (Run.settle outcome) := by
  cases outcome with
  | ok value => exact holds.pure value
  | error fault => exact holds.fail fault

theorem thenWith {first : Run Value} {proceed : Value → Run Value}
    (found : Holds Value scope names first)
    (next : ∀ value, Holds Value scope names (proceed value)) :
    Holds Value scope names (Run.thenWith first proceed) :=
  holds.bind found fun value => branch (holds.pure value) (next value)

theorem bindNames {bound : List String} (subset : bound ⊆ names) (values : List Value) :
    Holds Unit scope names (Run.bindNames scope bound values) := by
  induction bound generalizing values with
  | nil => exact holds.pure _
  | cons name bound inductionHypothesis =>
    obtain ⟨member, subset⟩ := List.cons_subset.mp subset
    cases values with
    | nil => exact holds.pure _
    | cons value values =>
      exact holds.bind (holds.bindName value member) fun _ => inductionHypothesis subset values

/-! ### Pieces of syntax -/

variable {calling : Evaluation.Calling}

theorem apply (calls : HoldsOfCalls Holds calling) (callee : Value) (values : List Value) :
    Holds Value scope [] (Evaluation.apply calling callee values) := by
  refine holds.bind (holds.note _ rfl) fun _ => ?_
  cases callee with
  | function closure =>
    refine branch (holds.fail _) (holds.bind holds.look fun raised => ?_)
    exact branch (holds.fail _) (calls closure values scope)
  | _ => exact holds.fail _

mutual

theorem expression (calls : HoldsOfCalls Holds calling) (scope : ScopeId) : ∀ piece,
    Holds Value scope piece.boundNames (Evaluation.expression calling scope piece)
  | .identifier name => by
    unfold Evaluation.expression
    refine holds.bind (holds.note _ rfl) fun _ => holds.bind (holds.find? scope name) ?_
    intro found
    cases found with
    | none => exact holds.fail _
    | some value => exact holds.pure value
  | .integer value => by
    unfold Evaluation.expression
    exact holds.bind (holds.note _ rfl) fun _ => holds.pure _
  | .boolean value => by
    unfold Evaluation.expression
    exact holds.bind (holds.note _ rfl) fun _ => holds.pure _
  | .prefixed operator operand => by
    unfold Evaluation.expression Expression.boundNames
    refine holds.bind (holds.note _ rfl) fun _ => holds.thenWith (expression calls scope operand) ?_
    exact fun value => holds.bind (holds.note _ rfl) fun _ => holds.settle _
  | .infixed left operator right => by
    unfold Evaluation.expression Expression.boundNames
    have ofLeft := holds.widen (expression calls scope left)
      (List.subset_append_left _ right.boundNames)
    have ofRight := holds.widen (expression calls scope right)
      (List.subset_append_right left.boundNames _)
    refine holds.bind (holds.note _ rfl) fun _ => holds.thenWith ofLeft fun leftValue => ?_
    refine holds.bind (holds.note _ rfl) fun _ => holds.thenWith ofRight fun rightValue => ?_
    exact holds.bind (holds.note _ rfl) fun _ => holds.settle _
  | .conditional condition consequence none => by
    unfold Evaluation.expression Expression.boundNames
    have ofCondition := holds.widen (expression calls scope condition)
      (List.subset_append_left _ (namesBoundBy consequence ++ []))
    have ofYes := holds.widen (statements calls scope .null consequence)
      (List.Subset.trans (List.subset_append_left _ [])
        (List.subset_append_right condition.boundNames _))
    refine holds.bind (holds.note _ rfl) fun _ => holds.thenWith ofCondition fun value => ?_
    exact holds.bind (holds.note _ rfl) fun _ => branch ofYes (holds.pure _)
  | .conditional condition consequence (some alternative) => by
    unfold Evaluation.expression Expression.boundNames
    have ofCondition := holds.widen (expression calls scope condition)
      (List.subset_append_left _ (namesBoundBy consequence ++ namesBoundBy alternative))
    have ofYes := holds.widen (statements calls scope .null consequence)
      (List.Subset.trans (List.subset_append_left _ (namesBoundBy alternative))
        (List.subset_append_right condition.boundNames _))
    have ofNo := holds.widen (statements calls scope .null alternative)
      (List.Subset.trans (List.subset_append_right (namesBoundBy consequence) _)
        (List.subset_append_right condition.boundNames _))
    refine holds.bind (holds.note _ rfl) fun _ => holds.thenWith ofCondition fun value => ?_
    exact holds.bind (holds.note _ rfl) fun _ => branch ofYes ofNo
  | .function parameters body => by
    unfold Evaluation.expression
    exact holds.bind (holds.note _ rfl) fun _ => holds.capture _ _ _
  | .call callee given => by
    unfold Evaluation.expression Expression.boundNames
    have ofCallee := holds.widen (expression calls scope callee)
      (List.subset_append_left _ (namesBoundAmong given))
    have ofGiven := holds.widen (arguments calls scope given)
      (List.subset_append_right callee.boundNames _)
    refine holds.bind (holds.note _ rfl) fun _ => holds.thenWith ofCallee fun value => ?_
    refine holds.bind (holds.note _ rfl) fun _ => holds.bind ofGiven fun outcome => ?_
    cases outcome with
    | ok values => exact holds.widen (apply holds calls value values) (List.nil_subset _)
    | error fault => exact holds.pure _

theorem arguments (calls : HoldsOfCalls Holds calling) (scope : ScopeId) : ∀ pieces,
    Holds (Except Fault (List Value)) scope (namesBoundAmong pieces)
      (Evaluation.arguments calling scope pieces)
  | [] => by
    unfold Evaluation.arguments
    exact holds.pure _
  | first :: rest => by
    unfold Evaluation.arguments namesBoundAmong
    have ofFirst := holds.widen (expression calls scope first)
      (List.subset_append_left _ (namesBoundAmong rest))
    have ofRest := holds.widen (arguments calls scope rest)
      (List.subset_append_right first.boundNames _)
    refine holds.bind ofFirst fun value => ?_
    cases value with
    | error fault => exact holds.pure _
    | _ =>
      refine holds.bind ofRest fun outcome => ?_
      cases outcome <;> exact holds.pure _

theorem statement (calls : HoldsOfCalls Holds calling) (scope : ScopeId) : ∀ piece,
    Holds Value scope piece.boundNames (Evaluation.statement calling scope piece)
  | .binding name value => by
    unfold Evaluation.statement Statement.boundNames
    have ofValue := holds.widen (expression calls scope value)
      (List.subset_cons_self name value.boundNames)
    refine holds.bind holds.look fun raised => branch (holds.fail _) ?_
    refine holds.bind (holds.note _ rfl) fun _ => holds.thenWith ofValue fun found => ?_
    exact holds.bind (holds.bindName found List.mem_cons_self) fun _ => holds.pure _
  | .returning none => by
    unfold Evaluation.statement
    refine holds.bind holds.look fun raised => branch (holds.fail _) ?_
    refine holds.bind (holds.note _ rfl) fun _ => ?_
    exact holds.bind (holds.note _ rfl) fun _ => holds.pure _
  | .returning (some value) => by
    unfold Evaluation.statement Statement.boundNames
    refine holds.bind holds.look fun raised => branch (holds.fail _) ?_
    refine holds.bind (holds.note _ rfl) fun _ => holds.thenWith (expression calls scope value) ?_
    exact fun found => holds.bind (holds.note _ rfl) fun _ => holds.pure _
  | .expression value => by
    unfold Evaluation.statement Statement.boundNames
    refine holds.bind holds.look fun raised => branch (holds.fail _) ?_
    exact holds.bind (holds.note _ rfl) fun _ => expression calls scope value

theorem statements (calls : HoldsOfCalls Holds calling) (scope : ScopeId) (latest : Value) : ∀ pieces,
    Holds Value scope (namesBoundBy pieces) (Evaluation.statements calling scope latest pieces)
  | [] => by
    unfold Evaluation.statements
    exact holds.pure _
  | first :: rest => by
    unfold Evaluation.statements namesBoundBy
    have ofFirst := holds.widen (statement calls scope first)
      (List.subset_append_left _ (namesBoundBy rest))
    refine holds.bind ofFirst fun value => branch (holds.pure _) ?_
    exact holds.widen (statements calls scope value rest) (List.subset_append_right _ _)

end

theorem call (depth : Nat) (closure : Closure) (values : List Value) (scope : ScopeId) :
    Holds Value scope [] (Evaluation.call depth closure values) := by
  induction depth generalizing closure values scope with
  | zero => exact holds.exhausted
  | succ depth inductionHypothesis =>
    -- Parameters are bound where the body binds its names, in the scope of the call.
    refine holds.enclose (closure.parameters ++ namesBoundBy closure.body) closure.scope ?_
    intro inner
    refine holds.bind (holds.bindNames (List.subset_append_left _ _) values) fun _ => ?_
    have ofBody := holds.statements inductionHypothesis inner .null closure.body
    exact holds.bind (holds.widen ofBody (List.subset_append_right _ _)) fun _ => holds.pure _

theorem program (program : Program) (depth : Nat) (scope : ScopeId) :
    Holds Completion scope (namesBoundBy program.statements) (program.run depth scope) :=
  holds.bind (holds.statements (holds.call depth) scope .null program.statements)
    fun _ => holds.pure _

end Compositional

end Monkey
