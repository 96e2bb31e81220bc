/-
This file compares runs of the same program in two stores, where the second has
scopes and closures from before that the first has not. All that is in the first
store is found in the second under higher numbers, so what a run can see from its
own scopes is the same in both, and what it comes to looks the same. Nothing is
known of what the second store held before, because no scope leads there.
-/

import Monkey.Proofs.Mirroring.Coupling
import Monkey.Proofs.Stores.Listing

namespace Monkey

namespace Mirror

/-! ### Higher numbers -/

/-- The same syntax in a store with some scopes and closures from before. -/
def relocation (scopes closures : Nat) : Mirror :=
  { Translation.identity with
    scope := fun place => scopes + place
    closure := fun identity => closures + identity
    scopeMono := fun _ _ less => Nat.add_lt_add_left less scopes
    closureMono := fun _ _ less => Nat.add_lt_add_left less closures }

instance (scopes closures : Nat) : InStep (relocation scopes closures) := ⟨rfl⟩

/-- What is in a store does not matter as long as nothing that is mirrored is there. -/
theorem stores_empty (store : Store) :
    (relocation store.scopes.size store.closures).Stores [] .empty store where
  size := rfl
  scopes more := by
    show store.scopes.size + (0 + more) = store.scopes.size + more
    rw [Nat.zero_add]
  closures more := by
    show store.closures + (0 + more) = store.closures + more
    rw [Nat.zero_add]
  found _ _ known := nomatch known

variable {mirror : Mirror} {regions : List mirror.Region} {region : mirror.Region}
  {place : ScopeId} {store store' : Store}

/-- The scopes that are seen from a scope are those that mirror them. -/
theorem Stores.chainWithin (alike : mirror.Stores regions store store')
    (known : regions[place]? = some region) {limit limit' : Nat} (enough : place < limit)
    (enough' : mirror.scope place < limit') :
    List.Forall₂
      (fun found found' => ∃ inner region, mirror.Scopes regions inner region found found')
      (store.chainWithin limit place) (store'.chainWithin limit' (mirror.scope place)) := by
  induction limit generalizing place region limit' with
  | zero => cases enough
  | succ limit inductionHypothesis =>
    obtain ⟨limit', rfl⟩ := Nat.exists_eq_succ_of_ne_zero (Nat.ne_zero_of_lt enough')
    obtain ⟨found, found', present, present', scopes⟩ := alike.found place region known
    have here : ∃ inner region, mirror.Scopes regions inner region found found' :=
      ⟨place, region, scopes⟩
    unfold Store.chainWithin
    rw [present, present']
    simp only [scopes.link]
    cases around : found.outer with
    | none => exact .cons here .nil
    | some outer =>
      obtain ⟨older, _, known', _⟩ := scopes.outer outer around
      exact .cons here (inductionHypothesis known'
        (Nat.lt_of_lt_of_le older (Nat.le_of_lt_succ enough))
        (Nat.lt_of_lt_of_le (mirror.scopeMono older) (Nat.le_of_lt_succ enough')))

/-! ### What is seen -/

section Relocated

variable {scopes closures : Nat} {regions : List (relocation scopes closures).Region}
  {store store' : Store} {place : ScopeId}

/-- Opening a scope that lies in no other in each store. -/
theorem Stores.create (alike : (relocation scopes closures).Stores regions store store') :
    ∃ more, (relocation scopes closures).Stores more store.create.2 store'.create.2 :=
  have opened : (relocation scopes closures).Scopes regions store.scopes.size () ⟨[], none⟩
      ⟨[], none⟩ := ⟨.nil, rfl, nofun, fun _ => trivial⟩
  ⟨_, alike.push opened⟩

/-- A value that was relocated has the same text. -/
theorem text_of_relocated {value value' : Value}
    (alike : (relocation scopes closures).Values regions value value') :
    value'.text = value.text := by
  induction alike with
  | function one =>
    obtain ⟨_, _, same⟩ := one.literal
    obtain ⟨parameters, body⟩ := Expression.function.inj same
    simp only [Value.text, parameters, body]
  | returned _ inductionHypothesis => exact inductionHypothesis
  | integer | boolean | null | error => rfl

theorem names_of_relocated {region : (relocation scopes closures).Region} {found found' : Scope}
    (alike : (relocation scopes closures).Scopes regions place region found found') :
    found'.names = found.names := by
  obtain ⟨bindings, outer⟩ := found
  obtain ⟨bindings', outer'⟩ := found'
  have same := alike.bindings
  unfold Scope.names
  show bindings'.map Prod.fst = bindings.map Prod.fst
  change List.Forall₂ _ bindings bindings' at same
  clear alike
  induction same with
  | nil => rfl
  | cons one _ inductionHypothesis => exact congrArg₂ List.cons one.name inductionHypothesis

theorem names_of_chains {chain chain' : List Scope}
    (alike : List.Forall₂ (fun found found' => ∃ inner region,
      (relocation scopes closures).Scopes regions inner region found found') chain chain') :
    chain'.flatMap Scope.names = chain.flatMap Scope.names := by
  induction alike with
  | nil => rfl
  | cons one _ inductionHypothesis =>
    obtain ⟨_, _, scopes⟩ := one
    rw [List.flatMap_cons, List.flatMap_cons, names_of_relocated scopes, inductionHypothesis]

/-- The same names are seen from a scope that was relocated. -/
theorem Stores.namesWithStem (alike : (relocation scopes closures).Stores regions store store')
    (known : place < regions.length) (stem : String) :
    store'.namesWithStem (scopes + place) stem = store.namesWithStem place stem := by
  have chains := alike.chainWithin (List.getElem?_eq_getElem known) (Nat.lt_succ_self _)
    (Nat.lt_succ_self _)
  rw [Store.namesWithStem_eq, Store.namesWithStem_eq]
  unfold Store.chain
  rw [← names_of_chains chains]
  rfl

end Relocated

end Mirror

end Monkey
