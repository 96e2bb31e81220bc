/-
This file says that parameters may be renamed. If a program has a function
literal replaced by the literal with a new name for one of its parameters, then
from the same store it ends in the same way, whatever depth of calls it needs,
and the same names are bound to the same values; only in functions the literal,
or a part of it, may stand with the new name.

The new name must not stand in the literal, and that is all that is asked of it:
it may be bound in scopes around the literal, because nothing within would look
for it there. The store must be well-formed, as all are that operations on stores
and so the requests to a session can lead to.
-/

import Monkey.Proofs.Evaluation.Links
import Monkey.Proofs.Mirroring.Coupling
import Monkey.Proofs.Renaming.Literals

namespace Monkey

/-! ### A store and itself -/

/-- A run from the same store, in which scopes and closures keep their numbers. -/
def ParameterRenaming.mirror (plan : ParameterRenaming) : Mirror :=
  { plan.translation with
    scope := id
    closure := id
    scopeMono := strictMono_id
    closureMono := strictMono_id }

instance (plan : ParameterRenaming) : Mirror.InStep plan.mirror := ⟨rfl⟩

/-- Every scope that is there is outside of the literal. -/
def Store.regions (store : Store) : List Region :=
  List.replicate store.scopes.size .outside

namespace ParameterRenaming

variable {plan : ParameterRenaming} {store : Store} {scope : ScopeId}

theorem region_eq (present : scope < store.scopes.size) :
    store.regions[scope]? = some .outside := by
  unfold Store.regions
  rw [List.getElem?_replicate, if_pos present]

theorem fixes_outside : plan.mirror.Fixes .outside where
  scope _ := rfl
  closure _ := rfl
  free _ := nofun
  name _ := rfl
  around names := around_self .outside names
  outermost _ := nofun
  literal := .refl

theorem stores_refl (wellFormed : store.WellFormed) :
    plan.mirror.Stores store.regions store store :=
  fixes_outside.stores wellFormed

end ParameterRenaming

/-! ### Renamed programs -/

/-- One closure is the other one, made of its literal with the renamed literal in it, or of a
literal with the new name, which stands in the renamed literal. -/
structure ParameterRenaming.Renames (plan : ParameterRenaming) (closure closure' : Closure) :
    Prop where
  identity : closure'.identity = closure.identity
  scope : closure'.scope = closure.scope
  literal : ExpressionReplaces plan.literal plan.renamed closure.literal closure'.literal ∨
    closure'.literal = closure.literal.rename plan.old plan.new

theorem ParameterRenaming.renames_of_closures {plan : ParameterRenaming} {regions : List Region}
    {closure closure' : Closure} (alike : plan.mirror.Closures regions closure closure') :
    plan.Renames closure closure' := by
  refine ⟨alike.identity, alike.scope, ?_⟩
  obtain ⟨region, _, becomes⟩ := alike.literal
  cases region with
  | outside => exact .inl becomes
  | inside => exact .inr becomes.1

/-- If a literal is replaced by the literal with a new name for a parameter, then the program ends
exactly if it did before, in the same way, and the same names are bound in every scope that was
there, to the same values up to that renaming in functions. -/
theorem Program.run_renamed (plan : ParameterRenaming) {program program' : Program}
    (replaces : StatementsReplace plan.literal plan.renamed program.statements program'.statements)
    (depth : Nat) {scope : ScopeId} {store : Store} (wellFormed : store.WellFormed)
    (present : scope < store.scopes.size) (signal : Option Signal) :
    (program.run depth scope ⟨store, signal, none⟩ = none ∧
      program'.run depth scope ⟨store, signal, none⟩ = none) ∨
    ∃ completion completion' final final' left,
      program.run depth scope ⟨store, signal, none⟩ = some (completion, ⟨final, left, none⟩) ∧
      program'.run depth scope ⟨store, signal, none⟩ = some (completion', ⟨final', left, none⟩) ∧
      completion.Like plan.Renames completion' ∧
      ∀ inner < store.scopes.size, ∀ name, Option.Rel (Value.Like plan.Renames)
        (final.own? inner name) (final'.own? inner name) := by
  obtain nothing | ⟨last, completion, completion', final, final', left, more, alike, stores, found,
      found'⟩ := Mirror.coupled_program plan.mirror program program' depth
    (ParameterRenaming.region_eq present) replaces store.regions List.prefix_rfl store store signal
    (ParameterRenaming.stores_refl wellFormed)
  · exact .inl nothing
  · refine .inr ⟨completion, completion', final, final', left, found, found', ?_, ?_⟩
    · exact alike.imp fun _ _ => ParameterRenaming.renames_of_closures
    · intro inner old name
      have known := Mirror.region_of_growth more (ParameterRenaming.region_eq old)
      obtain ⟨found, found', there, there', scopes⟩ := stores.found inner .outside known
      have bound := scopes.find? (nofun : plan.mirror.Free .outside name)
      unfold Store.own?
      rw [there, show final'.scopes[inner]? = some found' from there']
      show Option.Rel _ (found.find? name) (found'.find? name)
      change Option.Rel _ (found.find? name) (found'.find? name) at bound
      generalize found.find? name = value, found'.find? name = value' at bound
      cases bound with
      | none => exact .none
      | some one => exact .some (one.imp fun _ _ => ParameterRenaming.renames_of_closures)

/-- A counter that outlives the call it was made in, with the parameter renamed to a name that the
program uses elsewhere, and run where that name is bound already. -/
theorem Program.run_renamed_counter :
    let body : List Statement := [.expression (.function [] [.expression (.identifier "start")])]
    let plan : ParameterRenaming := ⟨["start"], body, "start", "seed", by decide, by decide⟩
    let others : List Statement := [.binding "seed" (.integer 7),
      .expression (.call (.call (.identifier "make") [.identifier "seed"]) [])]
    let program : Program := ⟨.binding "make" plan.literal :: others⟩
    let program' : Program := ⟨.binding "make" plan.renamed :: others⟩
    let store : Store := ⟨#[⟨[("seed", .integer 1)], none⟩], 0⟩
    StatementsReplace plan.literal plan.renamed program.statements program'.statements ∧
      store.WellFormed ∧ 0 < store.scopes.size ∧
      (program.run 3 0 ⟨store, none, none⟩).isSome ∧
      ((program.run 3 0 ⟨store, none, none⟩ = none ∧ program'.run 3 0 ⟨store, none, none⟩ = none) ∨
        ∃ completion completion' final final' left,
          program.run 3 0 ⟨store, none, none⟩ = some (completion, ⟨final, left, none⟩) ∧
          program'.run 3 0 ⟨store, none, none⟩ = some (completion', ⟨final', left, none⟩) ∧
          completion.Like plan.Renames completion' ∧
          ∀ inner < store.scopes.size, ∀ name, Option.Rel (Value.Like plan.Renames)
            (final.own? inner name) (final'.own? inner name)) := by
  intro body plan others program program' store
  have replaces : StatementsReplace plan.literal plan.renamed program.statements
      program'.statements := .cons (.binding "make" .here) (.refl others)
  have wellFormed : store.WellFormed :=
    Store.wellFormed_single (List.forall_mem_singleton.mpr rfl) 0
  have ends : (program.run 3 0 ⟨store, none, none⟩).isSome := by decide +kernel
  exact ⟨replaces, wellFormed, by decide, ends,
    Program.run_renamed plan replaces 3 wellFormed (by decide) none⟩

end Monkey
