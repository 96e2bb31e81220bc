/-
This file is about making a call again. A call leaves scopes and functions behind,
and functions are told apart by when they were made. But it changes no scope that
was there before, and nothing there knows of what it left. So the store after the
call mirrors the store before it: what was there is found in its place, and what
the call makes again is found under higher numbers. Run side by side from the two
stores, the call and its repetition both come to something, and to the same but for
the functions that they make.
-/

import Monkey.Proofs.Evaluation.Isolation
import Monkey.Proofs.Evaluation.Reachable
import Monkey.Proofs.Evaluation.Signals
import Monkey.Proofs.Mirroring.Coupling

namespace Monkey

/-! ### Higher numbers for what is new -/

namespace Mirror

/-- Numbers below the limit stay, and the others leave room for those that were added. -/
def shifted (limit added number : Nat) : Nat :=
  if number < limit then number else number + added

theorem shifted_of_lt {limit number : Nat} (small : number < limit) (added : Nat) :
    shifted limit added number = number :=
  if_pos small

theorem shifted_mono (limit added : Nat) : StrictMono (shifted limit added) := by
  intro first second less
  unfold shifted
  split <;> split <;> omega

/-- What comes next in one store is found next in the other. -/
theorem shifted_next {size later : Nat} (grows : size ≤ later) (more : Nat) :
    shifted size (later - size) (size + more) = later + more := by
  unfold shifted
  rw [if_neg (Nat.not_lt.mpr (Nat.le_add_right size more))]
  omega

/-- The same syntax in a later store, where what is new is found under higher numbers. -/
def insertion (store later : Store) : Mirror :=
  { Translation.identity with
    scope := shifted store.scopes.size (later.scopes.size - store.scopes.size)
    closure := shifted store.closures (later.closures - store.closures)
    scopeMono := shifted_mono _ _
    closureMono := shifted_mono _ _ }

instance (store later : Store) : InStep (insertion store later) := ⟨rfl⟩

variable {store later : Store} {value : Value}

/-- There is only one region, and all scopes of the store belong to it. -/
def plainRegions (store later : Store) : List (insertion store later).Region :=
  List.replicate store.scopes.size ()

theorem plainRegions_eq_some_iff {place : ScopeId} {region : (insertion store later).Region} :
    (plainRegions store later)[place]? = some region ↔ place < store.scopes.size := by
  show (List.replicate store.scopes.size ())[place]? = some () ↔ _
  rw [List.getElem?_replicate]
  split <;> simp [*]

/-- A value that was made before is found unchanged. -/
theorem values_of_made (later : Store) (made : store.Made value) :
    (insertion store later).Values (plainRegions store later) value value := by
  induction value with
  | function closure =>
    obtain ⟨present, numbered⟩ := made closure rfl
    exact .function ⟨(shifted_of_lt numbered _).symm, (shifted_of_lt present _).symm, (),
      plainRegions_eq_some_iff.mpr present, rfl⟩
  | returned value inductionHypothesis => exact .returned (inductionHypothesis made)
  | integer value => exact .integer value
  | boolean value => exact .boolean value
  | null => exact .null
  | error fault => exact .error fault

/-- A scope that lies in an older one, and where everything that is bound was made before, is found
unchanged. -/
theorem scopes_of_made {place : ScopeId} {found : Scope} (present : place < store.scopes.size)
    (older : ∀ outer ∈ found.outer, outer < place)
    (made : ∀ binding ∈ found.bindings, store.Made binding.2) :
    (insertion store later).Scopes (plainRegions store later) place () found found where
  bindings := by
    refine List.forall₂_same.mpr fun binding member => ?_
    exact ⟨trivial, rfl, values_of_made later (made binding member)⟩
  link := by
    cases around : found.outer with
    | none => rfl
    | some outer =>
      have inside := Nat.lt_trans (older outer around) present
      exact congrArg some (shifted_of_lt inside _).symm
  outer outer member :=
    have inside := Nat.lt_trans (older outer member) present
    ⟨older outer member, (), plainRegions_eq_some_iff.mpr inside, trivial⟩
  last _ := trivial

/-- A reachable store is mirrored by a later one in which its scopes are the same. -/
theorem stores_later (reachable : store.Reachable) (kept : store.Kept later)
    (grows : store.Grows later) :
    (insertion store later).Stores (plainRegions store later) store later where
  size := List.length_replicate
  scopes more := shifted_next grows.scopes more
  closures more := shifted_next grows.closures more
  found place region known := by
    have present := plainRegions_eq_some_iff.mp known
    have there := Array.getElem?_eq_getElem present
    have same : (insertion store later).scope place = place := shifted_of_lt present _
    refine ⟨store.scopes[place], store.scopes[place], there, ?_, ?_⟩
    · rw [same]
      exact kept place _ there
    · have older outer (around : outer ∈ store.scopes[place].outer) : outer < place :=
        reachable.ordered place _ outer there around
      exact scopes_of_made present older (reachable.binds place _ there)

end Mirror

/-! ### Without interruption -/

/-- The flag is lowered and is not raised. -/
def Signal.Quiet (signal : Signal) : Prop :=
  signal.raised = false ∧ ∀ raised ∈ signal.arrivals, raised = false

variable {Result : Type} {scope : ScopeId} {names : List String} {run : Run Result}
  {signal : Option Signal}

/-- Without interruption a run is the one without a flag, and there is no interruption after it. -/
theorem Run.Unraised.of_quiet (unraised : Run.Unraised Result scope names run)
    (quiet : ∀ flag ∈ signal, flag.Quiet) (store : Store) :
    (run ⟨store, none, none⟩ = none ∧ run ⟨store, signal, none⟩ = none) ∨
    ∃ result store' later, (∀ flag ∈ later, Signal.Quiet flag) ∧
      run ⟨store, none, none⟩ = some (result, ⟨store', none, none⟩) ∧
      run ⟨store, signal, none⟩ = some (result, ⟨store', later, none⟩) := by
  cases signal with
  | none =>
    obtain ⟨nothing, _⟩ | ⟨result, store', _, _, without, _⟩ := unraised store [] nofun
    · exact .inl ⟨nothing, nothing⟩
    · exact .inr ⟨result, store', none, nofun, without, without⟩
  | some flag =>
    obtain ⟨raised, arrivals⟩ := flag
    obtain ⟨rfl, lowered⟩ := quiet _ rfl
    obtain nothing | ⟨result, store', later, suffix, without, flagged⟩ :=
      unraised store arrivals lowered
    · exact .inl nothing
    · refine .inr ⟨result, store', some ⟨false, later⟩, ?_, without, flagged⟩
      rintro _ ⟨⟩
      exact ⟨rfl, fun raised member => lowered raised (suffix.subset member)⟩

/-! ### Calls -/

/-- Functions of the same parameters and body. -/
def Closure.SameLiteral (closure closure' : Closure) : Prop :=
  closure'.parameters = closure.parameters ∧ closure'.body = closure.body

namespace Evaluation

variable {store : Store} {depth : Nat} {callee value : Value} {values : List Value}

/-- Values that are found in the other store are the same up to the making of functions. -/
theorem sameLiteral_of_values {store later : Store}
    {regions : List (Mirror.insertion store later).Region} {value value' : Value}
    (alike : (Mirror.insertion store later).Values regions value value') :
    value.Like Closure.SameLiteral value' := by
  refine alike.imp fun closure closure' one => ?_
  obtain ⟨_, _, same⟩ := one.literal
  exact Expression.function.inj same

/-- In every reachable store a call that comes to something does so again in the store that it
leaves, as long as nothing interrupts it: to the same integer, truth value, null or error, under as
many returned values, or to a function of the same parameters and body. -/
theorem apply_repeats {final : Machine} (reachable : store.Reachable) (called : store.Made callee)
    (given : ∀ value ∈ values, store.Made value) (quiet : ∀ flag ∈ signal, flag.Quiet)
    (ended : apply (call depth) callee values ⟨store, signal, none⟩ = some (value, final)) :
    ∃ value' final', apply (call depth) callee values final = some (value', final') ∧
      value.Like Closure.SameLiteral value' := by
  have takes (scope : ScopeId) : Run.Takes Value scope [] (apply (call depth) callee values) :=
    Run.compositional_takes.apply (Run.compositional_takes.call depth) callee values
  have unraised : Run.Unraised Value 0 [] (apply (call depth) callee values) :=
    Run.compositional_unraised.apply (Run.compositional_unraised.call depth) callee values
  obtain ⟨_, nothing⟩ | ⟨result, later, left, still, without, flagged⟩ :=
    unraised.of_quiet quiet store
  · rw [nothing] at ended
    cases ended
  · obtain ⟨rfl, rfl⟩ := Prod.mk.inj (Option.some.inj (flagged.symm.trans ended))
    have kept : store.Kept later := (takes _ _ _ _ without).isolated.kept_of_new
    obtain ⟨_, _, grows⟩ := reachable.apply called given without
    have stores := Mirror.stores_later reachable kept grows
    have coupled := Mirror.coupled_apply (Mirror.coupled_call depth)
      (Mirror.values_of_made later called)
      (List.forall₂_same.mpr fun value member => Mirror.values_of_made later (given value member))
    obtain ⟨nothing, _⟩ | ⟨_, first, second, _, last, _, _, alike, _, one, again⟩ :=
      coupled _ List.prefix_rfl store later none stores
    · rw [nothing] at without
      cases without
    obtain rfl : first = result := congrArg Prod.fst (Option.some.inj (one.symm.trans without))
    obtain ⟨nothing, _⟩ | ⟨value', last', left', _, repeated, flagged'⟩ :=
      unraised.of_quiet still later
    · rw [nothing] at again
      cases again
    obtain rfl : value' = second :=
      congrArg Prod.fst (Option.some.inj (repeated.symm.trans again))
    exact ⟨value', _, flagged', sameLiteral_of_values alike⟩

/-- A call that makes a function, finds it different from its argument and returns it. -/
theorem apply_repeats_closure :
    ∃ (store : Store) (callee value : Value) (final : Machine), store.Reachable ∧
      store.Made callee ∧ Signal.Quiet ⟨false, []⟩ ∧
      apply (call 1) callee [callee] ⟨store, some ⟨false, []⟩, none⟩ = some (value, final) ∧
      (∃ closure, value = .function closure) ∧
      ∃ value' final', apply (call 1) callee [callee] final = some (value', final') ∧
        value.Like Closure.SameLiteral value' := by
  let body : List Statement := [
    .binding "h" (.function [] [.expression (.identifier "g")]),
    .expression (.conditional (.infixed (.identifier "h") .equal (.identifier "g"))
      [.returning (some (.integer 0))] none),
    .returning (some (.identifier "h"))]
  let callee : Value := .function ⟨0, ["g"], body, 0⟩
  let before := Store.empty.create.2.countClosure.2
  have made : before.Made callee := by
    rintro closure ⟨⟩
    exact ⟨Nat.one_pos, Nat.one_pos⟩
  have reachable : (before.set 0 "make" callee).Reachable :=
    .set 0 "make" (.capture (.create .empty)) made
  have still : (before.set 0 "make" callee).Made callee := made.grow (Store.grows_set _ _ _)
  have quiet : Signal.Quiet ⟨false, []⟩ := ⟨rfl, nofun⟩
  have ends : ∃ value final, apply (call 1) callee [callee]
      ⟨before.set 0 "make" callee, some ⟨false, []⟩, none⟩ = some (value, final) ∧
        ∃ closure, value = .function closure := ⟨_, _, rfl, _, rfl⟩
  obtain ⟨value, final, ended, function⟩ := ends
  refine ⟨_, callee, value, final, reachable, still, quiet, ended, function, ?_⟩
  refine apply_repeats reachable still (List.forall_mem_singleton.mpr still) ?_ ended
  rintro _ ⟨⟩
  exact quiet

end Evaluation

end Monkey
