/-
This file compares a store with the list of all that was done to it. Scopes are
added and names are set in any order, and a name may be set long after the scopes
from which it is seen were added. The list alone says which scope each scope lies
in and what each name was set to last, and so what is seen from where: the value
set last in the nearest scope outward in which the name was ever set. This is what
the store finds, and the names that it lists are those for which it finds something.
-/

import Monkey.Proofs.Evaluation.Links
import Monkey.Proofs.Stores.Listing
import Mathlib.Data.List.Induction

namespace Monkey.Store

/-! ### Actions -/

/-- What can be done to a store. -/
inductive Action where
  | create
  | enclose (outer : ScopeId)
  | set (scope : ScopeId) (name : String) (value : Value)

namespace Action

def perform (store : Store) : Action → Store
  | create => store.create.2
  | enclose outer => (store.enclose outer).2
  | set scope name value => store.set scope name value

/-- The scope that the action refers to is one of the first `count` scopes. -/
def Refers (count : Nat) : Action → Prop
  | create => True
  | enclose outer => outer < count
  | set scope _ _ => scope < count

instance (count : Nat) : DecidablePred (Refers count)
  | create => inferInstanceAs (Decidable True)
  | enclose outer => inferInstanceAs (Decidable (outer < count))
  | set scope _ _ => inferInstanceAs (Decidable (scope < count))

/-- The link outward of the scope that the action adds. -/
def link? : Action → Option (Option ScopeId)
  | create => some none
  | enclose outer => some (some outer)
  | set _ _ _ => none

/-- What the action sets the name to in the scope. -/
def value? (scope : ScopeId) (name : String) : Action → Option Value
  | set inner other value => if inner = scope ∧ other = name then some value else none
  | _ => none

end Action

/-! ### What a list of actions says -/

/-- The links outward of all scopes, in the order in which these are added. -/
def outerLinks (actions : List Action) : List (Option ScopeId) :=
  actions.filterMap Action.link?

/-- What the name is set to last in the scope. -/
def latestSet (scope : ScopeId) (name : String) (actions : List Action) : Option Value :=
  actions.reverse.findSome? (Action.value? scope name)

/-- Every action refers to a scope that was added before. -/
def Possible (actions : List Action) : Prop :=
  ∀ (place : Nat) (inside : place < actions.length),
    actions[place].Refers (outerLinks (actions.take place)).length

instance : DecidablePred Possible := fun actions =>
  inferInstanceAs (Decidable (∀ (place : Nat) (inside : place < actions.length),
    actions[place].Refers (outerLinks (actions.take place)).length))

/-- The value is the one set last in the nearest scope outward in which the name was ever set. -/
inductive Sees (actions : List Action) (name : String) (value : Value) : ScopeId → Prop where
  | here {scope : ScopeId} (set : latestSet scope name actions = some value) :
    Sees actions name value scope
  | outward {scope outer : ScopeId} (unset : latestSet scope name actions = none)
      (link : (outerLinks actions)[scope]? = some (some outer))
      (seen : Sees actions name value outer) : Sees actions name value scope

/-- The store after all actions. -/
def ofActions (actions : List Action) : Store :=
  actions.foldl Action.perform .empty

theorem outerLinks_append (actions : List Action) (action : Action) :
    outerLinks (actions ++ [action]) = outerLinks actions ++ action.link?.toList := by
  unfold outerLinks
  rw [List.filterMap_append]
  cases found : action.link? with
  | none => simp [found]
  | some link => simp [found]

theorem latestSet_append (scope : ScopeId) (name : String) (actions : List Action)
    (action : Action) :
    latestSet scope name (actions ++ [action]) =
      (action.value? scope name).or (latestSet scope name actions) := by
  unfold latestSet
  rw [List.reverse_append, List.reverse_singleton, List.findSome?_append, List.findSome?_singleton]

theorem Possible.init {actions : List Action} {action : Action}
    (possible : Possible (actions ++ [action])) :
    Possible actions ∧ action.Refers (outerLinks actions).length := by
  constructor
  · intro place inside
    have refers := possible place (by rw [List.length_append]; exact Nat.lt_add_right 1 inside)
    rwa [List.getElem_append_left inside, List.take_append_of_le_length inside.le] at refers
  · have refers := possible actions.length (by simp)
    rwa [List.getElem_concat_length rfl, List.take_left] at refers

/-! ### What the store keeps of it -/

/-- The store has the links and the values that the actions say. -/
structure Records (actions : List Action) (store : Store) : Prop where
  size : store.scopes.size = (outerLinks actions).length
  link : ∀ scope : ScopeId, store.scopes[scope]?.map Scope.outer = (outerLinks actions)[scope]?
  own : ∀ scope name, store.own? scope name = latestSet scope name actions
  ordered : store.Ordered

namespace Records

variable {actions : List Action} {store : Store}

theorem empty : Records [] .empty where
  size := rfl
  link _ := rfl
  own _ _ := rfl
  ordered := wellFormed_empty.older

/-- A scope is added at the end, and binds nothing yet. -/
theorem add (records : Records actions store) {action : Action} {outer : Option ScopeId}
    (adds : action.link? = some outer) (unset : ∀ scope name, action.value? scope name = none)
    (older : ∀ place ∈ outer, place < store.scopes.size) :
    Records (actions ++ [action]) (store.add outer).2 where
  size := by
    rw [size_add, records.size, outerLinks_append, adds, List.length_append]
    rfl
  link scope := by
    show (store.scopes.push _)[scope]?.map Scope.outer = _
    rw [outerLinks_append, adds, Option.toList_some, Array.getElem?_push]
    obtain before | rfl | after := Nat.lt_trichotomy scope store.scopes.size
    · rw [if_neg before.ne, List.getElem?_append_left (records.size ▸ before), records.link]
    · rw [if_pos rfl, records.size, List.getElem?_concat_length]
      rfl
    · rw [if_neg after.ne', Array.getElem?_eq_none after.le, List.getElem?_eq_none]
      · rfl
      · rw [List.length_append, List.length_singleton, ← records.size]
        exact after
  own scope name := by
    rw [own?_add, records.own, latestSet_append, unset]
    rfl
  ordered := records.ordered.add older

theorem set (records : Records actions store) {scope : ScopeId}
    (present : scope < store.scopes.size) (name : String) (value : Value) :
    Records (actions ++ [.set scope name value]) (store.set scope name value) where
  size := by
    rw [size_set, records.size, outerLinks_append]
    simp [Action.link?]
  link other := by
    have same : outerLinks (actions ++ [.set scope name value]) = outerLinks actions := by
      rw [outerLinks_append]
      exact List.append_nil _
    rw [same, ← records.link]
    by_cases here : other = scope
    · subst here
      rw [getElem?_set_self, Option.map_map]
      rfl
    · rw [getElem?_set_of_ne here]
  own other bound := by
    rw [own?_set present, records.own, latestSet_append, Action.value?]
    split <;> rfl
  ordered := records.ordered.set name value

/-- One action keeps the record. -/
theorem perform (records : Records actions store) {action : Action}
    (refers : action.Refers (outerLinks actions).length) :
    Records (actions ++ [action]) (action.perform store) := by
  rw [← records.size] at refers
  cases action with
  | create => exact records.add rfl (fun _ _ => rfl) nofun
  | enclose outer =>
    refine records.add rfl (fun _ _ => rfl) fun place same => ?_
    cases same
    exact refers
  | set scope name value => exact records.set refers name value

/-- So do all of them. -/
theorem of_possible (possible : Possible actions) : Records actions (ofActions actions) := by
  induction actions using List.reverseRecOn with
  | nil => exact empty
  | append_singleton actions action inductionHypothesis =>
    obtain ⟨before, refers⟩ := possible.init
    unfold ofActions
    rw [List.foldl_append]
    exact (inductionHypothesis before).perform refers

/-- Going outward in the store is going outward in what the actions say. -/
theorem findSome?_iff (records : Records actions store) {scope : ScopeId} {path : List ScopeId}
    (outward : store.Outward scope path) (name : String) (value : Value) :
    (path.findSome? fun inner => store.own? inner name) = some value ↔
      Sees actions name value scope := by
  induction outward with
  | last there outermost =>
    rename_i scope found
    have link := records.link scope
    rw [there, Option.map_some, outermost] at link
    rw [List.findSome?_singleton, records.own]
    constructor
    · exact .here
    · intro seen
      cases seen with
      | here set => exact set
      | outward _ further => cases link.trans further
  | further there around _ inductionHypothesis =>
    rename_i scope outer found path _
    have link := records.link scope
    rw [there, Option.map_some, around] at link
    rw [List.findSome?_cons, records.own]
    cases set : latestSet scope name actions with
    | some first =>
      constructor
      · rintro ⟨⟩
        exact .here set
      · intro seen
        cases seen with
        | here again => exact set.symm.trans again
        | outward unset => cases set.symm.trans unset
    | none =>
      rw [inductionHypothesis]
      constructor
      · exact .outward set link.symm
      · intro seen
        cases seen with
        | here again => cases set.symm.trans again
        | outward _ further seen =>
          cases link.trans further
          exact seen

end Records

/-! ### Lookups and listings -/

/-- Whatever was done to a store, a name is found as what it was set to last in the nearest scope
outward in which it was ever set. The names with a stem are listed in the strict order of their
bytes, and they are all those that are found. -/
theorem meets_history {actions : List Action} (possible : Possible actions) {scope : ScopeId}
    (added : scope < (outerLinks actions).length) :
    (∀ name value, (ofActions actions).get? scope name = some value ↔
        Sees actions name value scope) ∧
      ∀ stem,
        ((ofActions actions).namesWithStem scope stem).Pairwise
            (fun first second => Token.bytesOf first < Token.bytesOf second) ∧
          ∀ name, name ∈ (ofActions actions).namesWithStem scope stem ↔
            stem.toList <+: name.toList ∧
              ((ofActions actions).get? scope name).isSome := by
  have records := Records.of_possible possible
  rw [← records.size] at added
  obtain ⟨path, outward⟩ := records.ordered.exists_outward added
  refine ⟨fun name value => ?_, fun stem => ⟨?_, fun name => mem_namesWithStem⟩⟩
  · rw [outward.get? records.ordered]
    exact records.findSome?_iff outward name value
  · exact (namesWithStem_increasing _ _ _).imp Token.bytesOf_lt

/-- A name that is set in the outer scope after the inner one was added, and again. -/
theorem meets_history_late :
    let actions : List Action := [.create, .enclose 0, .set 1 "ade" (.integer 1), .create,
      .set 0 "add" (.integer 2), .set 2 "add" .null, .set 0 "add" (.boolean true)]
    Possible actions ∧ 1 < (outerLinks actions).length ∧ Sees actions "add" (.boolean true) 1 ∧
      (ofActions actions).namesWithStem 1 "ad" = ["add", "ade"] ∧
      ∀ name ∈ (ofActions actions).namesWithStem 1 "ad", "ad".toList <+: name.toList := by
  intro actions
  have possible : Possible actions := by decide
  have added : 1 < (outerLinks actions).length := by decide
  obtain ⟨found, listed⟩ := meets_history possible added
  exact ⟨possible, added, (found _ _).mp rfl, by decide +kernel,
    fun name member => (((listed "ad").2 name).mp member).1⟩

end Monkey.Store
