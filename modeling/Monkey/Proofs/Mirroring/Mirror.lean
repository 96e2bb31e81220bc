/-
This file sets two stores side by side. Each scope of the first is found in the
second, under another number perhaps, and binds what the names and the values
of the first become. A list says which region each scope of the first store
belongs to, and grows as scopes are opened. The second store may hold scopes
besides these, which no scope of the first one knows of.

A name that is looked up in a scope of the first store is then found in the
second under the name that it became.

Where nothing has to become something else, a store is its own mirror image.
-/

import Monkey.Proofs.Evaluation.Likeness
import Monkey.Proofs.Mirroring.Translation
import Monkey.Proofs.Scopes
import Mathlib.Data.List.Forall2
import Mathlib.Data.Nat.Basic
import Mathlib.Order.Monotone.Basic

namespace Monkey

/-- What becomes of syntax, and where the scopes and the closures of a run are found in another
run. -/
structure Mirror extends Translation where
  scope : ScopeId → ScopeId
  closure : Nat → Nat
  scopeMono : StrictMono scope
  closureMono : StrictMono closure

namespace Mirror

variable (mirror : Mirror)

/-! ### What is mirrored -/

/-- A closure becomes one of the literal that its own becomes. -/
structure Closures (regions : List mirror.Region) (closure closure' : Closure) : Prop where
  identity : closure'.identity = mirror.closure closure.identity
  scope : closure'.scope = mirror.scope closure.scope
  literal : ∃ region, regions[closure.scope]? = some region ∧
    mirror.OfExpression region closure.literal closure'.literal

abbrev Values (regions : List mirror.Region) : Value → Value → Prop :=
  Value.Like (mirror.Closures regions)

structure Bindings (regions : List mirror.Region) (region : mirror.Region)
    (binding binding' : String × Value) : Prop where
  free : mirror.Free region binding.1
  name : binding'.1 = mirror.name region binding.1
  value : mirror.Values regions binding.2 binding'.2

/-- The scope around a scope is older, and the names that become others are bound by then. -/
structure Scopes (regions : List mirror.Region) (place : ScopeId) (region : mirror.Region)
    (found found' : Scope) : Prop where
  bindings : List.Forall₂ (mirror.Bindings regions region) found.bindings found'.bindings
  link : found'.outer = found.outer.map mirror.scope
  outer : ∀ outer ∈ found.outer, outer < place ∧
    ∃ around, regions[outer]? = some around ∧ mirror.Around region around found.names
  last : found.outer = none → mirror.Outermost region found.names

/-- Every scope of the first store is found in the second, and so will be those opened next. -/
structure Stores (regions : List mirror.Region) (store store' : Store) : Prop where
  size : regions.length = store.scopes.size
  scopes : ∀ more, mirror.scope (store.scopes.size + more) = store'.scopes.size + more
  closures : ∀ more, mirror.closure (store.closures + more) = store'.closures + more
  found : ∀ place region, regions[place]? = some region → ∃ found found',
    store.scopes[place]? = some found ∧ store'.scopes[mirror.scope place]? = some found' ∧
      mirror.Scopes regions place region found found'

variable {mirror} {regions wider : List mirror.Region} {region : mirror.Region} {place : ScopeId}
  {store store' : Store} {found found' : Scope} {name : String} {value value' : Value}

/-! ### More scopes -/

theorem region_of_growth (more : regions <+: wider) (known : regions[place]? = some region) :
    wider[place]? = some region := by
  obtain ⟨others, rfl⟩ := more
  have inside := (List.getElem?_eq_some_iff.mp known).1
  rw [List.getElem?_append_left inside]
  exact known

theorem Closures.widen {closure closure' : Closure}
    (alike : mirror.Closures regions closure closure') (more : regions <+: wider) :
    mirror.Closures wider closure closure' where
  identity := alike.identity
  scope := alike.scope
  literal := by
    obtain ⟨region, known, becomes⟩ := alike.literal
    exact ⟨region, region_of_growth more known, becomes⟩

theorem values_widen (alike : mirror.Values regions value value') (more : regions <+: wider) :
    mirror.Values wider value value' :=
  alike.imp fun _ _ one => one.widen more

theorem Scopes.widen (alike : mirror.Scopes regions place region found found')
    (more : regions <+: wider) : mirror.Scopes wider place region found found' where
  bindings := List.Forall₂.imp
    (fun _ _ one => ⟨one.free, one.name, values_widen one.value more⟩) alike.bindings
  link := alike.link
  outer outer member := by
    obtain ⟨older, around, known, border⟩ := alike.outer outer member
    exact ⟨older, around, region_of_growth more known, border⟩
  last := alike.last

/-- Closures that are one and the same stay so, and others stay different. -/
theorem identifies : Value.Like.Identifies (mirror.Closures regions) := by
  intro first first' second second' one other
  rw [one.identity, other.identity, mirror.closureMono.injective.eq_iff]

/-! ### Looking up -/

theorem lookup {bindings bindings' : List (String × Value)}
    (alike : List.Forall₂ (mirror.Bindings regions region) bindings bindings')
    (free : mirror.Free region name) :
    Option.Rel (mirror.Values regions) (bindings.lookup name)
      (bindings'.lookup (mirror.name region name)) := by
  induction alike with
  | nil => exact .none
  | @cons binding binding' rest rest' one _ inductionHypothesis =>
    obtain ⟨bound, value⟩ := binding
    obtain ⟨bound', value'⟩ := binding'
    obtain rfl : bound' = mirror.name region bound := one.name
    have same := mirror.name_inj free one.free
    by_cases equal : name = bound
    · subst equal
      rw [List.lookup_cons_self, List.lookup_cons_self]
      exact .some one.value
    · rw [List.lookup_cons, List.lookup_cons, beq_false_of_ne equal,
        beq_false_of_ne (mt same.mp equal)]
      exact inductionHypothesis

theorem Scopes.find? (alike : mirror.Scopes regions place region found found')
    (free : mirror.Free region name) :
    Option.Rel (mirror.Values regions) (found.find? name)
      (found'.find? (mirror.name region name)) :=
  lookup alike.bindings free

/-- A name that is not bound in a scope can be looked up in the one around it. -/
theorem Scopes.name_outer (alike : mirror.Scopes regions place region found found')
    (unbound : found.find? name = none) {outer : ScopeId} (member : outer ∈ found.outer)
    (free : mirror.Free region name) :
    ∃ around, regions[outer]? = some around ∧ mirror.Free around name ∧
      mirror.name around name = mirror.name region name := by
  obtain ⟨_, around, known, border⟩ := alike.outer outer member
  have absent := Scope.not_mem_names_of_find?_eq_none unbound
  exact ⟨around, known, mirror.name_around border absent free⟩

/-- Looking a name up comes to alike values in both stores. -/
theorem Stores.findSome? (alike : mirror.Stores regions store store')
    (known : regions[place]? = some region) (free : mirror.Free region name) {limit limit' : Nat}
    (enough : place < limit) (enough' : mirror.scope place < limit') :
    Option.Rel (mirror.Values regions)
      ((store.chainWithin limit place).findSome? (·.find? name))
      ((store'.chainWithin limit' (mirror.scope place)).findSome?
        (·.find? (mirror.name region name))) := by
  induction limit generalizing place region limit' with
  | zero => cases enough
  | succ limit inductionHypothesis =>
    obtain ⟨limit', rfl⟩ := Nat.exists_eq_succ_of_ne_zero (Nat.ne_zero_of_lt enough')
    obtain ⟨found, found', present, present', scopes⟩ := alike.found place region known
    have here := scopes.find? free
    unfold Store.chainWithin
    rw [present, present']
    simp only [scopes.link]
    cases around : found.outer with
    | none => simpa using here
    | some outer =>
      simp only [Option.map_some, List.findSome?_cons]
      cases bound : found.find? name with
      | some value =>
        rw [bound] at here
        generalize found'.find? (mirror.name region name) = bound' at here
        cases here with
        | some one => exact .some one
      | none =>
        rw [bound] at here
        generalize found'.find? (mirror.name region name) = bound' at here
        cases here with
        | none =>
          obtain ⟨region', known', free', same⟩ := scopes.name_outer bound around free
          have older := (scopes.outer outer around).1
          rw [← same]
          exact inductionHypothesis known' free'
            (Nat.lt_of_lt_of_le older (Nat.le_of_lt_succ enough))
            (Nat.lt_of_lt_of_le (mirror.scopeMono older) (Nat.le_of_lt_succ enough'))

theorem Stores.get? (alike : mirror.Stores regions store store')
    (known : regions[place]? = some region) (free : mirror.Free region name) :
    Option.Rel (mirror.Values regions) (store.get? place name)
      (store'.get? (mirror.scope place) (mirror.name region name)) :=
  alike.findSome? known free (Nat.lt_succ_self _) (Nat.lt_succ_self _)

/-- A name that is not found anywhere is the same. -/
theorem Stores.name_of_unbound (alike : mirror.Stores regions store store')
    (known : regions[place]? = some region) (free : mirror.Free region name)
    (unbound : store.get? place name = none) : mirror.name region name = name := by
  unfold Store.get? Store.chain at unbound
  generalize enough : place + 1 = limit at unbound
  replace enough : place < limit := Nat.lt_of_lt_of_eq (Nat.lt_succ_self _) enough
  induction limit generalizing place region with
  | zero => cases enough
  | succ limit inductionHypothesis =>
    obtain ⟨found, found', present, _, scopes⟩ := alike.found place region known
    unfold Store.chainWithin at unbound
    rw [present] at unbound
    cases around : found.outer with
    | none =>
      have here : found.find? name = none := by simpa [around] using unbound
      exact mirror.name_outermost (scopes.last around) (Scope.not_mem_names_of_find?_eq_none here)
    | some outer =>
      have here : found.find? name = none := by
        cases bound : found.find? name with
        | none => rfl
        | some value => simp [around, bound] at unbound
      have further : (store.chainWithin limit outer).findSome? (·.find? name) = none := by
        simpa only [around, List.findSome?_cons, here] using unbound
      obtain ⟨region', known', free', same⟩ := scopes.name_outer here around free
      have older := (scopes.outer outer around).1
      rw [← same]
      exact inductionHypothesis known' free' further
        (Nat.lt_of_lt_of_le older (Nat.le_of_lt_succ enough))

/-! ### Binding and opening -/

theorem bindings_bind
    (alike : List.Forall₂ (mirror.Bindings regions region) found.bindings found'.bindings)
    (free : mirror.Free region name) (values : mirror.Values regions value value') :
    List.Forall₂ (mirror.Bindings regions region) (found.bind name value).bindings
      (found'.bind (mirror.name region name) value').bindings := by
  refine .cons ⟨free, rfl, values⟩ (List.rel_filter (fun binding binding' one => ?_) alike)
  have same := mirror.name_inj one.free free
  simp only [bne_iff_ne, ne_eq, one.name, same]

theorem Scopes.bind (alike : mirror.Scopes regions place region found found')
    (free : mirror.Free region name) (values : mirror.Values regions value value') :
    mirror.Scopes regions place region (found.bind name value)
      (found'.bind (mirror.name region name) value') where
  bindings := bindings_bind alike.bindings free values
  link := alike.link
  outer outer member := by
    obtain ⟨older, around, known, border⟩ := alike.outer outer member
    exact ⟨older, around, known, mirror.around_bind border Scope.names_subset_bind⟩
  last outermost := mirror.outermost_bind (alike.last outermost) Scope.names_subset_bind

theorem Stores.set (alike : mirror.Stores regions store store')
    (known : regions[place]? = some region) (free : mirror.Free region name)
    (values : mirror.Values regions value value') :
    mirror.Stores regions (store.set place name value)
      (store'.set (mirror.scope place) (mirror.name region name) value') where
  size := alike.size.trans (Store.size_set name value).symm
  scopes more := by
    rw [Store.size_set, Store.size_set]
    exact alike.scopes more
  closures := alike.closures
  found other around there := by
    obtain ⟨found, found', present, present', scopes⟩ := alike.found other around there
    by_cases same : other = place
    · subst same
      obtain rfl := Option.some.inj (known.symm.trans there)
      refine ⟨_, _, ?_, ?_, scopes.bind free values⟩
      · rw [Store.getElem?_set_self, present]
        rfl
      · rw [Store.getElem?_set_self, present']
        rfl
    · refine ⟨found, found', ?_, ?_, scopes⟩
      · rw [Store.getElem?_set_of_ne same, present]
      · rw [Store.getElem?_set_of_ne (mirror.scopeMono.injective.ne same), present']

theorem Stores.countClosure (alike : mirror.Stores regions store store') :
    mirror.Stores regions store.countClosure.2 store'.countClosure.2 where
  size := alike.size
  scopes := alike.scopes
  closures more := by
    show mirror.closure (store.closures + 1 + more) = store'.closures + 1 + more
    rw [Nat.add_assoc, Nat.add_assoc]
    exact alike.closures _
  found := alike.found

/-- Opening a scope in each store. -/
theorem Stores.push (alike : mirror.Stores regions store store')
    (scopes : mirror.Scopes regions store.scopes.size region found found') :
    mirror.Stores (regions ++ [region]) ⟨store.scopes.push found, store.closures⟩
      ⟨store'.scopes.push found', store'.closures⟩ where
  size := by
    rw [List.length_append, alike.size, Array.size_push]
    rfl
  scopes more := by
    simp only [Array.size_push, Nat.add_assoc]
    exact alike.scopes _
  closures := alike.closures
  found place around there := by
    have more : regions <+: regions ++ [region] := List.prefix_append _ _
    by_cases old : place < regions.length
    · rw [List.getElem?_append_left old] at there
      obtain ⟨found, found', present, present', scopes⟩ := alike.found place around there
      have inside := (Array.getElem?_eq_some_iff.mp present).1
      have inside' := (Array.getElem?_eq_some_iff.mp present').1
      refine ⟨found, found', ?_, ?_, scopes.widen more⟩
      · rw [Array.getElem?_push, if_neg (Nat.ne_of_lt inside), present]
      · rw [Array.getElem?_push, if_neg (Nat.ne_of_lt inside'), present']
    · obtain ⟨inside, same⟩ := List.getElem?_eq_some_iff.mp there
      have last : place = regions.length := by
        rw [List.length_append, List.length_singleton] at inside
        exact Nat.le_antisymm (Nat.le_of_lt_succ inside) (Nat.not_lt.mp old)
      subst last
      rw [List.getElem_concat_length rfl] at same
      subst same
      have next : mirror.scope store.scopes.size = store'.scopes.size := alike.scopes 0
      refine ⟨found, found', ?_, ?_, alike.size ▸ scopes.widen more⟩
      · rw [alike.size, Array.getElem?_push, if_pos rfl]
      · rw [alike.size, next, Array.getElem?_push, if_pos rfl]

/-! ### The scope of a call -/

theorem bindings_bindAll
    (alike : List.Forall₂ (mirror.Bindings regions region) found.bindings found'.bindings)
    {names : List String} (free : ∀ name ∈ names, mirror.Free region name)
    {values values' : List Value} (given : List.Forall₂ (mirror.Values regions) values values') :
    List.Forall₂ (mirror.Bindings regions region) (found.bindAll names values).bindings
      (found'.bindAll (names.map (mirror.name region)) values').bindings := by
  induction names generalizing found found' values values' with
  | nil => exact alike
  | cons name names inductionHypothesis =>
    obtain ⟨one, others⟩ := List.forall_mem_cons.mp free
    cases given with
    | nil => exact alike
    | cons first rest => exact inductionHypothesis (bindings_bind alike one first) others rest

/-- The scope of a call binds the parameters. -/
theorem Scopes.call {outer : ScopeId} {around : mirror.Region}
    (known : regions[outer]? = some around) (older : outer < place) {names : List String}
    {values values' : List Value} (border : mirror.Around region around names)
    (free : ∀ name ∈ names, mirror.Free region name)
    (alike : List.Forall₂ (mirror.Values regions) values values')
    (enough : names.length = values.length) :
    mirror.Scopes regions place region (Scope.bindAll ⟨[], some outer⟩ names values)
      (Scope.bindAll ⟨[], some (mirror.scope outer)⟩ (names.map (mirror.name region)) values') where
  bindings := bindings_bindAll .nil free alike
  link := by
    rw [Scope.outer_bindAll, Scope.outer_bindAll]
    rfl
  outer other member := by
    rw [Scope.outer_bindAll] at member
    cases member
    exact ⟨older, around, known, mirror.around_bind border (Scope.names_bindAll _ enough).2⟩
  last outermost := by
    rw [Scope.outer_bindAll] at outermost
    cases outermost

/-! ### A store and itself -/

/-- Numbers stay, and in one region syntax may stay as it is. -/
structure Fixes (mirror : Mirror) (home : mirror.Region) : Prop where
  scope : ∀ place, mirror.scope place = place
  closure : ∀ identity, mirror.closure identity = identity
  free : ∀ name, mirror.Free home name
  name : ∀ name, mirror.name home name = name
  around : ∀ names, mirror.Around home home names
  outermost : ∀ names, mirror.Outermost home names
  literal : ∀ piece, mirror.OfExpression home piece piece

/-- Every scope that is there belongs to one region. -/
abbrev regionsOf (home : mirror.Region) (store : Store) : List mirror.Region :=
  List.replicate store.scopes.size home

variable {home : mirror.Region}

theorem regionsOf_eq_some_iff :
    (regionsOf home store)[place]? = some region ↔ place < store.scopes.size ∧ home = region := by
  rw [List.getElem?_replicate]
  split <;> simp [*]

theorem Fixes.values (fixes : mirror.Fixes home)
    (present : ∀ closure ∈ value.closure?, closure.scope < store.scopes.size) :
    mirror.Values (regionsOf home store) value value := by
  induction value with
  | integer value => exact .integer value
  | boolean value => exact .boolean value
  | null => exact .null
  | function closure =>
    exact .function ⟨(fixes.closure _).symm, (fixes.scope _).symm, home,
      regionsOf_eq_some_iff.mpr ⟨present closure rfl, rfl⟩, fixes.literal _⟩
  | returned value inductionHypothesis => exact .returned (inductionHypothesis present)
  | error fault => exact .error fault

/-- A well-formed store mirrors itself. -/
theorem Fixes.stores (fixes : mirror.Fixes home) (wellFormed : store.WellFormed) :
    mirror.Stores (regionsOf home store) store store where
  size := List.length_replicate
  scopes _ := fixes.scope _
  closures _ := fixes.closure _
  found place region known := by
    obtain ⟨present, rfl⟩ := regionsOf_eq_some_iff.mp known
    have there := Array.getElem?_eq_getElem present
    refine ⟨_, _, there, by rw [fixes.scope, there], ?_, ?_, ?_, fun _ => fixes.outermost _⟩
    · exact List.forall₂_same.mpr fun binding member => ⟨fixes.free _, (fixes.name _).symm,
        fixes.values (wellFormed.present place _ there binding member)⟩
    · rw [show mirror.scope = id from funext fixes.scope, Option.map_id, id]
    · intro outer member
      have older := wellFormed.older place _ outer there member
      exact ⟨older, home, regionsOf_eq_some_iff.mpr ⟨Nat.lt_trans older present, rfl⟩,
        fixes.around _⟩

end Mirror

end Monkey
