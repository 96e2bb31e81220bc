/-
This file is about how scopes are linked. A scope may lie in an outer scope, a
function was made in a scope, and a scope may bind functions that were made in
itself, so scopes refer to each other in circles. But outer scopes are older: a
scope is opened in one that is there, and its link outward never changes. So the
way outward from any scope comes to an end, and no scope is on it twice.

This is kept by all that can be done to a store: by adding scopes, by binding
values whose functions were made in scopes that are there, and by evaluation,
which is a discipline of such values.
-/

import Monkey.Proofs.Evaluation.Discipline
import Monkey.Proofs.Evaluation.Recording
import Monkey.Proofs.Stores.Listing

namespace Monkey

namespace Store

variable {store : Store} {scope : ScopeId}

/-- The scope of every function in a value is there. -/
def Knows (store : Store) (value : Value) : Prop :=
  ∀ closure ∈ value.closure?, closure.scope < store.scopes.size

/-! ### Outer scopes are older -/

/-- Every scope lies in an older one. -/
def Ordered (store : Store) : Prop :=
  ∀ (scope : ScopeId) (found : Scope) (outer : ScopeId), store.scopes[scope]? = some found →
    found.outer = some outer → outer < scope

theorem Ordered.add (ordered : store.Ordered) {outer : Option ScopeId}
    (older : ∀ place ∈ outer, place < store.scopes.size) : (store.add outer).2.Ordered := by
  intro scope found place there around
  obtain ⟨rfl, rfl⟩ | before := getElem?_add there
  · exact older place around
  · exact ordered scope found place before around

theorem Ordered.set (ordered : store.Ordered) (name : String) (value : Value) :
    (store.set scope name value).Ordered := by
  intro other found place there around
  by_cases same : other = scope
  · subst same
    rw [getElem?_set_self] at there
    obtain ⟨before, present, rfl⟩ := Option.map_eq_some_iff.mp there
    exact ordered other before place present around
  · rw [getElem?_set_of_ne same] at there
    exact ordered other found place there around

/-! ### Links stay -/

/-- Every scope is still there, and lies in the same scope. -/
def KeepsLinks (before after : Store) : Prop :=
  ∀ (scope : ScopeId) (found : Scope), before.scopes[scope]? = some found →
    ∃ changed, after.scopes[scope]? = some changed ∧ changed.outer = found.outer

namespace KeepsLinks

variable {before middle after : Store}

theorem refl : before.KeepsLinks before :=
  fun _ found there => ⟨found, there, rfl⟩

theorem trans (first : before.KeepsLinks middle) (second : middle.KeepsLinks after) :
    before.KeepsLinks after := by
  intro scope found there
  obtain ⟨changed, present, same⟩ := first scope found there
  obtain ⟨last, still, again⟩ := second scope changed present
  exact ⟨last, still, again.trans same⟩

theorem add (outer : Option ScopeId) : store.KeepsLinks (store.add outer).2 :=
  fun _ found there => ⟨found, getElem?_add_of_eq_some there outer, rfl⟩

theorem set (name : String) (value : Value) : store.KeepsLinks (store.set scope name value) := by
  intro other found there
  by_cases same : other = scope
  · subst same
    refine ⟨found.bind name value, ?_, rfl⟩
    rw [getElem?_set_self, there]
    rfl
  · exact ⟨found, by rw [getElem?_set_of_ne same, there], rfl⟩

theorem of_leads {start final : Machine} (leads : start.Leads final) :
    start.store.KeepsLinks final.store := by
  induction leads with
  | refl => exact refl
  | tail _ moves inductionHypothesis =>
    refine inductionHypothesis.trans ?_
    cases moves with
    | note | signal | capture => exact refl
    | bind scope name value => exact set name value
    | enclose outer => exact add (some outer)

/-- No scope is lost. -/
theorem size_le (kept : before.KeepsLinks after) : before.scopes.size ≤ after.scopes.size := by
  refine Nat.le_of_not_lt fun less => ?_
  obtain ⟨_, there, _⟩ := kept _ _ (Array.getElem?_eq_getElem less)
  exact Nat.lt_irrefl _ (Array.getElem?_eq_some_iff.mp there).1

theorem knows (kept : before.KeepsLinks after) {value : Value} (known : before.Knows value) :
    after.Knows value :=
  fun closure member => Nat.lt_of_lt_of_le (known closure member) kept.size_le

end KeepsLinks

end Store

/-! ### Evaluation -/

/-- Values whose functions were made in scopes that are there make a discipline. -/
def Discipline.known : Discipline where
  Good machine value := machine.store.Knows value
  Open machine scope := scope < machine.store.scopes.size
  Ordered := Store.Ordered
  good_later moves known := (Store.KeepsLinks.of_leads (.single moves)).knows known
  open_later moves there :=
    Nat.lt_of_lt_of_le there (Store.KeepsLinks.of_leads (.single moves)).size_le
  good_null := nofun
  good_boolean := nofun
  good_integer := nofun
  good_capture there closure same := by
    cases same
    exact there
  good_returned known := known
  good_unwrapped := by
    intro machine value known
    cases value <;> exact known
  open_enclose _ := by
    rw [Store.size_enclose]
    exact Nat.lt_succ_self _
  ordered_enclose ordered known := ordered.add fun _ same => by
    cases same
    exact known _ rfl
  ordered_set ordered _ := ordered.set _ _
  ordered_capture ordered := ordered

theorem Discipline.sound_known {store : Store} (wellFormed : store.WellFormed)
    (signal : Option Signal) : known.Sound ⟨store, signal, none⟩ :=
  ⟨wellFormed.older, wellFormed.present, nofun⟩

/-- Evaluation from a well-formed store leaves one, and comes to a value in it. -/
theorem Program.run_wellFormed (program : Program) (depth : Nat) {scope : ScopeId} {store : Store}
    (wellFormed : store.WellFormed) (present : scope < store.scopes.size) {signal : Option Signal}
    {completion : Completion} {final : Machine}
    (ended : program.run depth scope ⟨store, signal, none⟩ = some (completion, final)) :
    final.store.WellFormed ∧ store.KeepsLinks final.store ∧
      final.store.Knows completion.value := by
  obtain ⟨leads, sound, inner, outcome, same⟩ := Discipline.keeps_program program depth present _
    .refl (Discipline.sound_known wellFormed signal) _ _ ended
  refine ⟨⟨sound.ordered, sound.bound⟩, .of_leads leads, ?_⟩
  obtain failed | known := Discipline.outcome_of_answer ⟨inner, outcome, same⟩
  -- There is no function in an error.
  · generalize completion.value = value at failed
    cases value with
    | error fault => exact nofun
    | _ => cases failed
  · exact known

/-! ### The way outward -/

namespace Store

/-- The scopes from a scope outward, up to one that lies in no other. -/
inductive Outward (store : Store) : ScopeId → List ScopeId → Prop where
  | last {scope : ScopeId} {found : Scope} (there : store.scopes[scope]? = some found)
      (outermost : found.outer = none) : Outward store scope [scope]
  | further {scope outer : ScopeId} {found : Scope} {path : List ScopeId}
      (there : store.scopes[scope]? = some found) (around : found.outer = some outer)
      (onward : Outward store outer path) : Outward store scope (scope :: path)

variable {store : Store} {scope : ScopeId} {path : List ScopeId}

/-- There is a way outward from every scope, since each scope on it is older. -/
theorem Ordered.exists_outward (ordered : store.Ordered) (present : scope < store.scopes.size) :
    ∃ path, store.Outward scope path := by
  induction scope using Nat.strongRecOn with
  | ind scope inductionHypothesis =>
    have there := Array.getElem?_eq_getElem present
    cases around : store.scopes[scope].outer with
    | none => exact ⟨[scope], .last there around⟩
    | some outer =>
      have older := ordered scope _ outer there around
      obtain ⟨path, onward⟩ := inductionHypothesis outer older (Nat.lt_trans older present)
      exact ⟨scope :: path, .further there around onward⟩

theorem Outward.le_of_mem (outward : store.Outward scope path) (ordered : store.Ordered) :
    ∀ inner ∈ path, inner ≤ scope := by
  induction outward with
  | last => exact List.forall_mem_singleton.mpr (Nat.le_refl _)
  | further there around _ inductionHypothesis =>
    have older := ordered _ _ _ there around
    exact List.forall_mem_cons.mpr ⟨Nat.le_refl _, fun inner member =>
      Nat.le_trans (inductionHypothesis inner member) (Nat.le_of_lt older)⟩

/-- No scope is on the way twice. -/
theorem Outward.nodup (outward : store.Outward scope path) (ordered : store.Ordered) :
    path.Nodup := by
  induction outward with
  | last => exact List.pairwise_singleton _ _
  | further there around onward inductionHypothesis =>
    refine List.nodup_cons.mpr ⟨fun again => ?_, inductionHypothesis⟩
    have older := ordered _ _ _ there around
    exact Nat.lt_irrefl _ (Nat.lt_of_le_of_lt (onward.le_of_mem ordered _ again) older)

/-- The scopes that are seen are those on the way outward. -/
theorem Outward.chainWithin (outward : store.Outward scope path) (ordered : store.Ordered)
    {limit : Nat} (enough : scope < limit) :
    store.chainWithin limit scope = path.filterMap fun inner => store.scopes[inner]? := by
  induction outward generalizing limit with
  | last there outermost =>
    obtain ⟨limit, rfl⟩ := Nat.exists_eq_succ_of_ne_zero (Nat.ne_zero_of_lt enough)
    simp only [Store.chainWithin, there, outermost, List.filterMap_cons, List.filterMap_nil]
  | further there around _ inductionHypothesis =>
    obtain ⟨limit, rfl⟩ := Nat.exists_eq_succ_of_ne_zero (Nat.ne_zero_of_lt enough)
    have older := ordered _ _ _ there around
    simp only [Store.chainWithin, there, around, List.filterMap_cons]
    rw [inductionHypothesis (Nat.lt_of_lt_of_le older (Nat.le_of_lt_succ enough))]

theorem Outward.chain (outward : store.Outward scope path) (ordered : store.Ordered) :
    store.chain scope = path.filterMap fun inner => store.scopes[inner]? :=
  outward.chainWithin ordered (Nat.lt_succ_self scope)

/-- A name is looked up along the way outward. -/
theorem Outward.get? (outward : store.Outward scope path) (ordered : store.Ordered)
    (name : String) :
    store.get? scope name = path.findSome? fun inner => store.own? inner name := by
  rw [Store.get?, outward.chain ordered]
  clear outward
  induction path with
  | nil => rfl
  | cons inner path inductionHypothesis =>
    rw [List.findSome?_cons, ← inductionHypothesis, List.filterMap_cons, own?]
    cases store.scopes[inner]? with
    | none => rfl
    | some found => rfl

/-! ### What can be done to a store -/

/-- A scope is added, a value is bound, or a program is evaluated, whatever it ends in. -/
inductive Operates : Store → Store → Prop where
  | create {store : Store} : Operates store store.create.2
  | enclose {store : Store} {outer : ScopeId} (present : outer < store.scopes.size) :
    Operates store (store.enclose outer).2
  | set {store : Store} {scope : ScopeId} {value : Value} (name : String)
      (present : scope < store.scopes.size) (known : store.Knows value) :
    Operates store (store.set scope name value)
  | evaluate {store : Store} {scope : ScopeId} {program : Program} {depth : Nat}
      {signal : Option Signal} {completion : Completion} {final : Machine}
      (present : scope < store.scopes.size)
      (ended : program.run depth scope ⟨store, signal, none⟩ = some (completion, final)) :
    Operates store final.store

variable {later : Store}

theorem WellFormed.add (wellFormed : store.WellFormed) {outer : Option ScopeId}
    (older : ∀ place ∈ outer, place < store.scopes.size) : (store.add outer).2.WellFormed where
  older := Ordered.add wellFormed.older older
  present := (wellFormed.present.add outer).imp fun _ => (KeepsLinks.add outer).knows

theorem WellFormed.set (wellFormed : store.WellFormed) (name : String) {value : Value}
    (known : store.Knows value) : (store.set scope name value).WellFormed where
  older := Ordered.set wellFormed.older name value
  present := (wellFormed.present.set known name).imp fun _ => (KeepsLinks.set name value).knows

/-- One operation keeps the store well-formed and all links outward. -/
theorem Operates.wellFormed (operates : store.Operates later) (wellFormed : store.WellFormed) :
    later.WellFormed ∧ store.KeepsLinks later := by
  cases operates with
  | create => exact ⟨wellFormed.add nofun, .add none⟩
  | @enclose outer present =>
    refine ⟨wellFormed.add fun place same => ?_, .add (some outer)⟩
    cases same
    exact present
  | set name present known => exact ⟨wellFormed.set name known, .set name _⟩
  | evaluate present ended =>
    obtain ⟨still, kept, _⟩ := Program.run_wellFormed _ _ wellFormed present ended
    exact ⟨still, kept⟩

/-- So do any number of them. -/
theorem operations_wellFormed (operations : Relation.ReflTransGen Operates store later)
    (wellFormed : store.WellFormed) : later.WellFormed ∧ store.KeepsLinks later := by
  induction operations with
  | refl => exact ⟨wellFormed, .refl⟩
  | tail _ operates inductionHypothesis =>
    obtain ⟨middle, kept⟩ := inductionHypothesis
    obtain ⟨last, further⟩ := operates.wellFormed middle
    exact ⟨last, kept.trans further⟩

theorem wellFormed_empty : Store.empty.WellFormed where
  older _ _ _ there := nomatch there
  present _ _ there := nomatch there

/-- Whatever is done to stores, every scope that is referred to is there: the outer scopes, and
those of functions that are bound or that evaluation comes to. The outer scope of a scope stays what
it was. From every scope the way outward ends, without passing a scope twice, and to look a name up
or to list the names is to go that way. -/
theorem operations_keep_links (built : Relation.ReflTransGen Operates .empty store)
    (further : Relation.ReflTransGen Operates store later) :
    later.WellFormed ∧ store.KeepsLinks later ∧
      (∀ scope < later.scopes.size, ∃ path, later.Outward scope path ∧ path.Nodup ∧
        (∀ name, later.get? scope name = path.findSome? fun inner => later.own? inner name) ∧
        ∀ stem, later.namesWithStem scope stem = sortNames
          (((path.filterMap fun inner => later.scopes[inner]?).flatMap Scope.names).filter
            (Text.hasStem stem))) ∧
      ∀ (program : Program) depth scope signal completion final, scope < later.scopes.size →
        program.run depth scope ⟨later, signal, none⟩ = some (completion, final) →
          final.store.Knows completion.value := by
  obtain ⟨wellFormed, _⟩ := operations_wellFormed built wellFormed_empty
  obtain ⟨still, kept⟩ := operations_wellFormed further wellFormed
  refine ⟨still, kept, fun scope present => ?_, fun program depth scope signal completion final
    present ended => (program.run_wellFormed depth still present ended).2.2⟩
  have ordered : later.Ordered := still.older
  obtain ⟨path, outward⟩ := ordered.exists_outward present
  refine ⟨path, outward, outward.nodup ordered, outward.get? ordered, fun stem => ?_⟩
  rw [namesWithStem_eq, outward.chain ordered]

/-- A function that is bound in the scope it was made in, and a scope in that one. -/
theorem operations_keep_links_recursive :
    ∃ first second : Store, Relation.ReflTransGen Operates .empty first ∧
      Relation.ReflTransGen Operates first second ∧
      (∃ closure, second.get? 0 "f" = some (.function closure) ∧ closure.scope = 0) ∧
      second.WellFormed ∧ ∃ path, second.Outward 1 path ∧ path.Nodup := by
  let program : Program := ⟨[.binding "f" (.function [] [.expression (.identifier "f")])]⟩
  have ends : ∃ completion final,
      program.run 0 0 ⟨Store.empty.create.2, none, none⟩ = some (completion, final) ∧
        final.store.scopes.size = 1 ∧ ∃ closure,
          (final.store.enclose 0).2.get? 0 "f" = some (.function closure) ∧ closure.scope = 0 :=
    ⟨_, _, rfl, rfl, _, rfl, rfl⟩
  obtain ⟨completion, final, ended, size, bound⟩ := ends
  have built : Relation.ReflTransGen Operates .empty final.store :=
    .tail (.single .create) (.evaluate Nat.one_pos ended)
  have further : Relation.ReflTransGen Operates final.store (final.store.enclose 0).2 :=
    .single (.enclose (by rw [size]; exact Nat.one_pos))
  obtain ⟨wellFormed, _, outward, _⟩ := operations_keep_links built further
  have opened : 1 < (final.store.enclose 0).2.scopes.size := by
    rw [size_enclose, size]
    exact Nat.lt_succ_self 1
  obtain ⟨path, reached, once, _⟩ := outward 1 opened
  exact ⟨final.store, (final.store.enclose 0).2, built, further, bound, wellFormed, path, reached,
    once⟩

end Store

end Monkey
