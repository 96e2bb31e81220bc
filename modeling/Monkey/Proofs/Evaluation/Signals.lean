/-
This file is about the flag that interrupts a run. Looking at a lowered flag does
nothing but pass the look, so a run whose flag is not raised comes to what it comes
to without a flag, leaves the same store, and leaves the flag lowered.

A run that looks at a raised flag lowers it. So from a lowered flag every run comes
to one, and another run can go on from there.
-/

import Monkey.Proofs.Evaluation.Composition

namespace Monkey

namespace Run

/-! ### Flags that are not raised -/

variable {Result Following : Type} {scope : ScopeId} {names : List String}

/-- As long as the flag is not raised, the run is the one without a flag, and passes looks. -/
def Unraised (Result : Type) (_ : ScopeId) (_ : List String) (run : Run Result) : Prop :=
  ∀ store arrivals, (∀ raised ∈ arrivals, raised = false) →
    (run ⟨store, none, none⟩ = none ∧ run ⟨store, some ⟨false, arrivals⟩, none⟩ = none) ∨
    ∃ result store' later, later <:+ arrivals ∧
      run ⟨store, none, none⟩ = some (result, ⟨store', none, none⟩) ∧
      run ⟨store, some ⟨false, arrivals⟩, none⟩ = some (result, ⟨store', some ⟨false, later⟩, none⟩)

/-- A step that has nothing to do with the flag. -/
theorem unraised_of_step {run : Run Result} (result : Store → Result) (change : Store → Store)
    (step : ∀ store signal, run ⟨store, signal, none⟩ =
      some (result store, ⟨change store, signal, none⟩)) : Unraised Result scope names run :=
  fun store arrivals _ => .inr ⟨result store, change store, arrivals, List.suffix_rfl,
    step store none, step store _⟩

theorem Unraised.bind {first : Run Result} {second : Result → Run Following}
    (unraised : Unraised Result scope names first)
    (next : ∀ result, Unraised Following scope names (second result)) :
    Unraised Following scope names (first >>= second) := by
  intro store arrivals lowered
  obtain ⟨without, flagged⟩ | ⟨result, store', later, suffix, without, flagged⟩ :=
    unraised store arrivals lowered
  · exact .inl ⟨bind_of_eq_none without, bind_of_eq_none flagged⟩
  · rw [bind_of_eq_some without, bind_of_eq_some flagged]
    obtain nothing | ⟨value, last, left, further, rest⟩ :=
      next result store' later fun raised member => lowered raised (suffix.subset member)
    · exact .inl nothing
    · exact .inr ⟨value, last, left, further.trans suffix, rest⟩

theorem unraised_look : Unraised Bool scope names look := by
  intro store arrivals lowered
  have unseen : arrivals.headD false = false := by
    cases arrivals with
    | nil => rfl
    | cons raised arrivals => exact lowered raised List.mem_cons_self
  refine .inr ⟨false, store, arrivals.tail, List.tail_suffix _, rfl, ?_⟩
  unfold look
  simp only [unseen]
  rfl

/-- Evaluations take no notice of a flag that is not raised. -/
theorem compositional_unraised : Compositional Unraised where
  pure _ := unraised_of_step _ id fun _ _ => rfl
  bind := .bind
  widen unraised _ := unraised
  exhausted _ _ _ := .inl ⟨rfl, rfl⟩
  note _ _ := unraised_of_step _ id fun _ _ => rfl
  look := unraised_look
  fail _ := unraised_of_step _ id fun _ _ => rfl
  find? inner name := unraised_of_step (fun store => store.get? inner name) id fun _ _ => rfl
  bindName {scope _ name} value _ := unraised_of_step _
    (fun store => store.set scope name value) fun _ _ => rfl
  capture inner parameters body := unraised_of_step
    (fun store => .function ⟨store.closures, parameters, body, inner⟩)
    (fun store => store.countClosure.2) fun _ _ => rfl
  enclose _ outer next store arrivals lowered :=
    next store.scopes.size (store.enclose outer).2 arrivals lowered

end Run

/-! ### Runs after runs -/

/-- A run can start here: the flag is lowered, if there is one, and no journal is kept. -/
structure Machine.Ready (machine : Machine) : Prop where
  lowered : machine.signal.map Signal.lowered = machine.signal
  silent : machine.journal = none

theorem Machine.Ready.of_write {machine : Machine} (ready : machine.Ready) (event : Event) :
    (machine.write event).Ready where
  lowered := ready.lowered
  silent := by rw [write, ready.silent, Option.map_none]

/-- Nothing depends on the store. -/
theorem Machine.Ready.of_store {machine : Machine} (ready : machine.Ready) (store : Store) :
    { machine with store }.Ready :=
  ⟨ready.lowered, ready.silent⟩

/-- From where a run can start, the run comes to where another one can. -/
def Run.KeepsReady (Result : Type) (_ : ScopeId) (_ : List String) (run : Run Result) : Prop :=
  ∀ machine result final, machine.Ready → run machine = some (result, final) → final.Ready

/-- Evaluations leave the flag lowered, also if they are interrupted. -/
theorem Run.compositional_keepsReady : Compositional Run.KeepsReady where
  pure value machine result final ready found := by
    cases found
    exact ready
  bind keeps next machine value final ready found := by
    obtain ⟨result, middle, one, other⟩ := bind_eq_some.mp found
    exact next _ _ _ _ (keeps _ _ _ ready one) other
  widen keeps _ := keeps
  exhausted machine result final ready found := by cases found
  note event _ machine result final ready found := by
    cases found
    exact ready.of_write event
  look machine result final ready found := by
    unfold look at found
    split at found
    · cases found
      exact ready
    · rename_i signal _
      cases found
      have looked : { machine with signal := some ⟨false, signal.arrivals.tail⟩ }.Ready :=
        ⟨rfl, ready.silent⟩
      exact looked.of_write _
  fail fault machine result final ready found := by
    cases found
    exact ready.of_write _
  find? inner name machine result final ready found := by
    cases found
    exact ready
  bindName value member machine result final ready found := by
    cases found
    exact (ready.of_store _).of_write _
  capture inner parameters body machine result final ready found := by
    cases found
    exact ready.of_store _
  enclose _ outer next machine value final ready found := by
    obtain ⟨inner, middle, one, other⟩ := bind_eq_some.mp found
    cases one
    exact next _ _ _ _ (ready.of_store _) other

end Monkey
