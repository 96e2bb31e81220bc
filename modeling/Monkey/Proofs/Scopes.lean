/-
This file computes the store by its operations: what a name is bound to in a
single scope after one binding or those of all parameters, and which scopes are
there after a scope is opened or a name is bound in one. In a store that
evaluation can come to, scopes lie in older scopes, and functions were made in
scopes that are there.
-/

import Monkey.Store

namespace Monkey

/-! ### One scope -/

namespace Scope

theorem find?_bind_self (scope : Scope) (name : String) (value : Value) :
    (scope.bind name value).find? name = some value :=
  List.lookup_cons_self

theorem lookup_filter_ne {bindings : List (String × Value)} {name other : String}
    (different : other ≠ name) :
    (bindings.filter fun binding => binding.1 != name).lookup other = bindings.lookup other := by
  induction bindings with
  | nil => rfl
  | cons binding rest inductionHypothesis =>
    obtain ⟨bound, value⟩ := binding
    by_cases same : bound = name
    · have passed : (other == bound) = false := by
        rw [same]
        exact beq_false_of_ne different
      rw [List.filter_cons_of_neg (by simp [same]), inductionHypothesis, List.lookup_cons, passed]
    · rw [List.filter_cons_of_pos (by simp [same]), List.lookup_cons, List.lookup_cons,
        inductionHypothesis]

theorem find?_bind_of_ne {scope : Scope} {name other : String} (different : other ≠ name)
    (value : Value) : (scope.bind name value).find? other = scope.find? other := by
  have passed : (other == name) = false := beq_false_of_ne different
  show List.lookup other ((name, value) :: _) = _
  rw [List.lookup_cons, passed]
  exact lookup_filter_ne different

theorem mem_names_bind {scope : Scope} {name : String} {value : Value} {found : String} :
    found ∈ (scope.bind name value).names ↔ found = name ∨ found ∈ scope.names := by
  simp only [names, bind, List.map_cons, List.mem_cons, List.mem_map, List.mem_filter, bne_iff_ne]
  constructor
  · rintro (same | ⟨binding, ⟨inside, _⟩, same⟩)
    · exact .inl same
    · exact .inr ⟨binding, inside, same⟩
  · rintro (same | ⟨binding, inside, rfl⟩)
    · exact .inl same
    · by_cases same : binding.1 = name
      · exact .inl same
      · exact .inr ⟨binding, ⟨inside, same⟩, rfl⟩

theorem names_subset_bind {scope : Scope} {name : String} {value : Value} :
    scope.names ⊆ (scope.bind name value).names :=
  fun _ bound => mem_names_bind.mpr (.inr bound)

theorem find?_eq_none_iff {scope : Scope} {name : String} :
    scope.find? name = none ↔ name ∉ scope.names := by
  rw [find?, List.lookup_eq_none_iff, names]
  simp only [bne_iff_ne, ne_eq, List.mem_map, not_exists, not_and, @eq_comm _ name]

theorem not_mem_names_of_find?_eq_none {scope : Scope} {name : String}
    (unbound : scope.find? name = none) : name ∉ scope.names :=
  find?_eq_none_iff.mp unbound

/-- A scope with names bound to values in order, as far as there are both. -/
def bindAll (scope : Scope) : List String → List Value → Scope
  | name :: names, value :: values => (scope.bind name value).bindAll names values
  | _, _ => scope

theorem outer_bindAll (scope : Scope) (names : List String) (values : List Value) :
    (scope.bindAll names values).outer = scope.outer := by
  induction names generalizing scope values with
  | nil => rfl
  | cons name names inductionHypothesis =>
    cases values with
    | nil => rfl
    | cons value values => exact inductionHypothesis (scope.bind name value) values

/-- All of the names are bound if there is a value for each. -/
theorem names_bindAll (scope : Scope) {names : List String} {values : List Value}
    (enough : names.length = values.length) :
    scope.names ⊆ (scope.bindAll names values).names ∧
      names ⊆ (scope.bindAll names values).names := by
  induction names generalizing scope values with
  | nil => exact ⟨List.Subset.refl _, List.nil_subset _⟩
  | cons name names inductionHypothesis =>
    cases values with
    | nil => cases enough
    | cons value values =>
      obtain ⟨kept, bound⟩ := inductionHypothesis (scope.bind name value)
        (Nat.succ.inj enough)
      refine ⟨List.Subset.trans names_subset_bind kept, ?_⟩
      exact List.cons_subset.mpr ⟨kept (mem_names_bind.mpr (.inl rfl)), bound⟩

end Scope

/-! ### The store -/

namespace Store

variable {store : Store} {scope other : ScopeId}

@[simp] theorem size_set (name : String) (value : Value) :
    (store.set scope name value).scopes.size = store.scopes.size :=
  Array.size_modify

theorem size_add (outer : Option ScopeId) :
    (store.add outer).2.scopes.size = store.scopes.size + 1 :=
  Array.size_push _

@[simp] theorem size_enclose (outer : ScopeId) :
    (store.enclose outer).2.scopes.size = store.scopes.size + 1 :=
  size_add (some outer)

theorem getElem?_set_self (name : String) (value : Value) :
    (store.set scope name value).scopes[scope]? = store.scopes[scope]?.map (·.bind name value) := by
  unfold set
  rw [Array.getElem?_modify, if_pos rfl]

theorem getElem?_set_of_ne (different : other ≠ scope) (name : String) (value : Value) :
    (store.set scope name value).scopes[other]? = store.scopes[other]? := by
  unfold set
  rw [Array.getElem?_modify, if_neg different.symm]

/-- A scope that was added binds nothing yet, and the others are as they were. -/
theorem getElem?_add {found : Scope} {outer : Option ScopeId}
    (there : (store.add outer).2.scopes[other]? = some found) :
    (other = store.scopes.size ∧ found = ⟨[], outer⟩) ∨ store.scopes[other]? = some found := by
  change (store.scopes.push _)[other]? = _ at there
  rw [Array.getElem?_push] at there
  split at there
  · rename_i new
    exact .inl ⟨new, (Option.some.inj there).symm⟩
  · exact .inr there

/-- Adding a scope leaves those that are there. -/
theorem getElem?_add_of_eq_some {found : Scope} (present : store.scopes[other]? = some found)
    (outer : Option ScopeId) : (store.add outer).2.scopes[other]? = some found := by
  have inside : other < store.scopes.size := (Array.getElem?_eq_some_iff.mp present).1
  show (store.scopes.push _)[other]? = _
  rw [Array.getElem?_push, if_neg (Nat.ne_of_lt inside)]
  exact present

/-! ### Bound values -/

/-- Every value that is bound in some scope has the property. -/
def Binds (Holds : Value → Prop) (store : Store) : Prop :=
  ∀ (scope : ScopeId) (found : Scope), store.scopes[scope]? = some found →
    ∀ binding ∈ found.bindings, Holds binding.2

namespace Binds

variable {Holds Other : Value → Prop}

theorem imp (binds : store.Binds Holds) (implies : ∀ value, Holds value → Other value) :
    store.Binds Other :=
  fun scope found present binding member =>
    implies binding.2 (binds scope found present binding member)

theorem set {value : Value} (binds : store.Binds Holds) (holds : Holds value) (name : String) :
    (store.set scope name value).Binds Holds := by
  intro other found present binding member
  by_cases same : other = scope
  · subst same
    rw [getElem?_set_self] at present
    obtain ⟨before, there, rfl⟩ := Option.map_eq_some_iff.mp present
    obtain rfl | member := List.mem_cons.mp member
    · exact holds
    · exact binds other before there binding (List.mem_filter.mp member).1
  · rw [getElem?_set_of_ne same] at present
    exact binds other found present binding member

theorem add (binds : store.Binds Holds) (outer : Option ScopeId) :
    (store.add outer).2.Binds Holds := by
  intro other found present binding member
  obtain ⟨_, rfl⟩ | before := getElem?_add present
  · cases member
  · exact binds other found before binding member

theorem enclose (binds : store.Binds Holds) (outer : ScopeId) :
    (store.enclose outer).2.Binds Holds :=
  binds.add (some outer)

/-- What is seen from a scope is bound in some scope. -/
theorem of_mem_chainWithin (binds : store.Binds Holds) {limit : Nat} {found : Scope}
    (member : found ∈ store.chainWithin limit scope) :
    ∀ binding ∈ found.bindings, Holds binding.2 := by
  induction limit generalizing scope with
  | zero => cases member
  | succ limit inductionHypothesis =>
    unfold chainWithin at member
    split at member
    · cases member
    · rename_i present
      split at member
      · obtain rfl := List.mem_singleton.mp member
        exact binds scope found present
      · obtain rfl | member := List.mem_cons.mp member
        · exact binds scope found present
        · exact inductionHypothesis member

theorem get? (binds : store.Binds Holds) {name : String} {value : Value}
    (found : store.get? scope name = some value) : Holds value := by
  obtain ⟨inner, member, bound⟩ := List.exists_of_findSome?_eq_some found
  obtain ⟨before, after, split, _⟩ := List.lookup_eq_some_iff.mp bound
  have inside : (name, value) ∈ inner.bindings := by
    rw [split]
    exact List.mem_append_right _ List.mem_cons_self
  exact binds.of_mem_chainWithin member (name, value) inside

end Binds

end Store

/-! ### Well-formed stores -/

/-- The closure in a value, under any number of returned values. -/
def Value.closure? : Value → Option Closure
  | .function closure => some closure
  | .returned value => value.closure?
  | _ => none

/-- The literal that a closure was made of. -/
def Closure.literal (closure : Closure) : Expression :=
  .function closure.parameters closure.body

/-- Every scope lies in an older one, and every function that is bound was made in a scope that is
there. -/
structure Store.WellFormed (store : Store) : Prop where
  older : ∀ (scope : ScopeId) (found : Scope) (outer : ScopeId),
    store.scopes[scope]? = some found → found.outer = some outer → outer < scope
  present : store.Binds fun value =>
    ∀ closure ∈ value.closure?, closure.scope < store.scopes.size

/-- A single scope is well-formed as long as no function is bound in it. -/
theorem Store.wellFormed_single {bindings : List (String × Value)}
    (plain : ∀ binding ∈ bindings, binding.2.closure? = none) (closures : Nat) :
    Store.WellFormed ⟨#[⟨bindings, none⟩], closures⟩ := by
  have only : ∀ (scope : ScopeId) (found : Scope),
      #[(⟨bindings, none⟩ : Scope)][scope]? = some found → found = ⟨bindings, none⟩ := by
    intro scope found there
    obtain ⟨inside, rfl⟩ := Array.getElem?_eq_some_iff.mp there
    obtain rfl : scope = 0 := Nat.lt_one_iff.mp inside
    rfl
  refine ⟨fun scope found outer there around => ?_, fun scope found there binding member => ?_⟩
  · rw [only scope found there] at around
    cases around
  · rw [only scope found there] at member
    rw [plain binding member]
    exact nofun

end Monkey
