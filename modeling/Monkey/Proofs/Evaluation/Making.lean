/-
This file follows the functions of a run from their making on. Each evaluation of
a function literal makes one function, and all of them are put in a list in the
order in which they are made. The list is what is kept in mind: it only ever grows
at its end, it has as many functions as the journal tells of evaluations of function
literals, each of the literal that was evaluated, and the number of a function is
its place in the list.

However values are passed on, every function in them is the one in the list under
its number. The journal tells of no function before the evaluation that made it.
-/

import Monkey.Proofs.Evaluation.Conduct
import Monkey.Proofs.Scopes

namespace Monkey

/-! ### Function literals in journals -/

/-- The function literal whose evaluation starts with the event. -/
def Event.literal? : Event → Option Expression
  | .expression (.function parameters body) => some (.function parameters body)
  | _ => none

/-- The function literals that were evaluated, the first one first. The journal has the latest
event first. -/
def literalsOf : List Event → List Expression
  | [] => []
  | event :: earlier => literalsOf earlier ++ event.literal?.toList

theorem literalsOf_cons_of_isPlain {event : Event} (plain : event.literal? = none)
    (earlier : List Event) : literalsOf (event :: earlier) = literalsOf earlier := by
  rw [literalsOf, plain, Option.toList_none, List.append_nil]

theorem literalsOf_append (later earlier : List Event) :
    literalsOf (later ++ earlier) = literalsOf earlier ++ literalsOf later := by
  induction later with
  | nil => exact (List.append_nil _).symm
  | cons event later inductionHypothesis =>
    rw [List.cons_append, literalsOf, inductionHypothesis, List.append_assoc, literalsOf]

theorem length_literalsOf_le (event : Event) (earlier : List Event) :
    (literalsOf earlier).length ≤ (literalsOf (event :: earlier)).length := by
  rw [literalsOf, List.length_append]
  exact Nat.le_add_right _ _

/-! ### Functions that were made -/

variable {made wider : List Closure} {value : Value} {store : Store} {events : List Event}
  {scope : ScopeId}

/-- The functions in the value are those that were made under their numbers. -/
def Value.MadeIn (made : List Closure) (value : Value) : Prop :=
  ∀ closure ∈ value.closure?, made[closure.identity]? = some closure

theorem Value.MadeIn.widen (known : value.MadeIn made) (more : made <+: wider) :
    value.MadeIn wider := by
  obtain ⟨others, rfl⟩ := more
  intro closure member
  have there := known closure member
  have inside := (List.getElem?_eq_some_iff.mp there).1
  rw [List.getElem?_append_left inside, there]

/-- There is no function in the value. -/
theorem Value.MadeIn.of_plain (plain : value.closure? = none) : value.MadeIn made := by
  intro closure member
  rw [plain] at member
  cases member

/-- Whatever an event tells of was made before. -/
def Told (made : List Closure) : List Event → Prop
  | [] => True
  | event :: earlier =>
    event.Carries (Value.MadeIn (made.take (literalsOf earlier).length)) ∧ Told made earlier

namespace Told

theorem widen (told : Told made events) (enough : (literalsOf events).length ≤ made.length)
    (more : made <+: wider) : Told wider events := by
  obtain ⟨others, rfl⟩ := more
  induction events with
  | nil => trivial
  | cons event earlier inductionHypothesis =>
    obtain ⟨carries, told⟩ := told
    have fewer := Nat.le_trans (length_literalsOf_le event earlier) enough
    refine ⟨?_, inductionHypothesis told fewer⟩
    rw [List.take_append_of_le_length fewer]
    exact carries

theorem of_append {later earlier : List Event} (told : Told made (later ++ earlier)) :
    Told made earlier := by
  induction later with
  | nil => exact told
  | cons event later inductionHypothesis => exact inductionHypothesis told.2

/-- All that the journal tells of was made by the evaluations that it tells of. -/
theorem carries (told : Told made events) {event : Event} (member : event ∈ events) :
    event.Carries (Value.MadeIn (made.take (literalsOf events).length)) := by
  induction events with
  | nil => cases member
  | cons last earlier inductionHypothesis =>
    have fewer := List.take_prefix_take_left (l := made) (length_literalsOf_le last earlier)
    have before : event.Carries (Value.MadeIn (made.take (literalsOf earlier).length)) := by
      obtain rfl | member := List.mem_cons.mp member
      · exact told.1
      · exact inductionHypothesis told.2 member
    exact before.imp fun _ known => known.widen fewer

end Told

/-! ### Keeping the list -/

/-- The functions that were made up to a moment of a run. -/
structure Ledger (made : List Closure) (store : Store) (events : List Event) : Prop where
  counted : made.length = store.closures
  numbered : ∀ (number : Nat) (closure : Closure), made[number]? = some closure →
    closure.identity = number
  literals : made.map Closure.literal = literalsOf events
  bound : store.Binds (Value.MadeIn made)
  told : Told made events

namespace Ledger

theorem empty : Ledger [] .empty [] where
  counted := rfl
  numbered _ _ there := nomatch there
  literals := rfl
  bound _ _ there := nomatch there
  told := trivial

theorem length_literals (ledger : Ledger made store events) :
    (literalsOf events).length = made.length := by
  rw [← ledger.literals, List.length_map]

theorem note (ledger : Ledger made store events) {event : Event} (plain : event.literal? = none)
    (carries : event.Carries (Value.MadeIn made)) : Ledger made store (event :: events) where
  counted := ledger.counted
  numbered := ledger.numbered
  literals := ledger.literals.trans (literalsOf_cons_of_isPlain plain events).symm
  bound := ledger.bound
  told := ⟨by rwa [ledger.length_literals, List.take_length], ledger.told⟩

theorem set (ledger : Ledger made store events) (known : value.MadeIn made) (name : String) :
    Ledger made (store.set scope name value) events where
  counted := ledger.counted
  numbered := ledger.numbered
  literals := ledger.literals
  bound := ledger.bound.set known name
  told := ledger.told

theorem add (ledger : Ledger made store events) (outer : Option ScopeId) :
    Ledger made (store.add outer).2 events where
  counted := ledger.counted
  numbered := ledger.numbered
  literals := ledger.literals
  bound := ledger.bound.add outer
  told := ledger.told

/-- A function that is made is put at the end. -/
theorem make (ledger : Ledger made store events) (parameters : List String)
    (body : List Statement) (scope : ScopeId) :
    Ledger (made ++ [⟨store.closures, parameters, body, scope⟩]) store.countClosure.2
      (.expression (.function parameters body) :: events) where
  counted := by
    rw [List.length_append, ledger.counted]
    rfl
  numbered number closure there := by
    by_cases old : number < made.length
    · rw [List.getElem?_append_left old] at there
      exact ledger.numbered number closure there
    · obtain ⟨inside, same⟩ := List.getElem?_eq_some_iff.mp there
      rw [List.length_append, List.length_singleton] at inside
      obtain rfl := Nat.le_antisymm (Nat.le_of_lt_succ inside) (Nat.not_lt.mp old)
      rw [List.getElem_concat_length rfl] at same
      rw [← same, ledger.counted]
  literals := by
    rw [List.map_append, ledger.literals]
    rfl
  bound := by
    have same : store.countClosure.2.Binds (Value.MadeIn made) := ledger.bound
    exact same.imp fun _ known => known.widen (List.prefix_append _ _)
  told := ⟨trivial, ledger.told.widen (Nat.le_of_eq ledger.length_literals)
    (List.prefix_append _ _)⟩

end Ledger

/-! ### Evaluation -/

/-- The list of functions is kept in mind, besides a machine with a journal. -/
def Conduct.making : Conduct where
  World := List Closure × Machine
  machine := Prod.snd
  Later now later := now.1 <+: later.1
  Sound now := ∃ events, now.2.journal = some events ∧ Ledger now.1 now.2.store events
  Good now := Value.MadeIn now.1
  Open _ _ := True

namespace Conduct

variable {now : making.World}

theorem sound_write (sound : making.Sound now) (event : Event) (plain : event.literal? = none)
    (carries : event.Carries (making.Good now)) : making.Sound (now.1, now.2.write event) := by
  obtain ⟨events, kept, ledger⟩ := sound
  refine ⟨event :: events, ?_, ledger.note plain carries⟩
  show now.2.journal.map (event :: ·) = some (event :: events)
  rw [kept, Option.map_some]

theorem literal?_of_isPlain {event : Event} (plain : event.isPlain = true) :
    event.literal? = none := by
  cases event with
  | expression piece =>
    cases piece with
    | function parameters body => cases plain
    | _ => rfl
  | _ => rfl

instance : making.Lawful where
  later_refl _ := List.prefix_rfl
  later_trans := List.IsPrefix.trans
  good_later more known := known.widen more
  open_later _ _ := trivial
  good_null := .of_plain rfl
  good_boolean := .of_plain rfl
  good_integer := .of_plain rfl
  good_unwrapped := by
    intro _ value known
    cases value <;> exact known
  keeps_note := by
    intro start event plain carries now later sound _ final found
    cases found
    have wider := carries.imp fun _ known => known.widen later
    refine ⟨(now.1, _), rfl, List.prefix_rfl, ?_, trivial⟩
    exact sound_write sound event (literal?_of_isPlain plain) wider
  keeps_leaving := by
    intro start value known now later sound _ final found
    cases found
    have wider : (Event.leaving value).Carries (making.Good now) := known.widen later
    exact ⟨(now.1, _), rfl, List.prefix_rfl, sound_write sound (.leaving value) rfl wider, wider⟩
  keeps_fail := by
    intro start fault now _ sound _ final found
    cases found
    refine ⟨(now.1, _), rfl, List.prefix_rfl, ?_, rfl⟩
    exact sound_write sound (.failure fault) rfl trivial
  keeps_look := by
    intro start now _ sound raised final found
    unfold Run.look at found
    split at found
    · cases found
      exact ⟨now, rfl, List.prefix_rfl, sound, trivial⟩
    · rename_i signal _
      cases found
      have lowered : making.Sound
          (now.1, { now.2 with signal := some ⟨false, signal.arrivals.tail⟩ }) := sound
      refine ⟨(now.1, _), rfl, List.prefix_rfl, ?_, trivial⟩
      exact sound_write lowered (.look _) rfl trivial
  keeps_find? := by
    intro start scope name now _ sound _ final found
    cases found
    obtain ⟨_, _, ledger⟩ := id sound
    exact ⟨now, rfl, List.prefix_rfl, sound, fun value there => ledger.bound.get? there⟩
  keeps_bindName := by
    intro start scope name value known now later sound _ final found
    cases found
    have here := known.widen later
    obtain ⟨events, kept, ledger⟩ := sound
    have bound : making.Sound (now.1, { now.2 with store := now.2.store.set scope name value }) :=
      ⟨events, kept, ledger.set here name⟩
    refine ⟨(now.1, _), rfl, List.prefix_rfl, ?_, trivial⟩
    exact sound_write bound (.binding scope name value) rfl here
  keeps_enclose := by
    intro start closure _ now _ sound _ final found
    cases found
    obtain ⟨events, kept, ledger⟩ := sound
    exact ⟨(now.1, _), rfl, List.prefix_rfl, ⟨events, kept, ledger.add _⟩, trivial⟩
  keeps_literal := by
    intro start scope parameters body _ now _ sound _ final found
    cases found
    obtain ⟨events, kept, ledger⟩ := sound
    refine ⟨(now.1 ++ [_], _), rfl, List.prefix_append _ _,
      ⟨_, ?_, ledger.make parameters body scope⟩, ?_⟩
    · show now.2.journal.map _ = _
      rw [kept, Option.map_some]
    · rintro closure ⟨⟩
      show (now.1 ++ [⟨now.2.store.closures, parameters, body, scope⟩])[now.2.store.closures]? =
        some ⟨now.2.store.closures, parameters, body, scope⟩
      rw [← ledger.counted, List.getElem?_concat_length]

/-- A program makes more functions, and comes to a value with functions that were made. -/
theorem making_program {made : List Closure} {store : Store} {events : List Event}
    (ledger : Ledger made store events) {program : Program} {depth : Nat} {scope : ScopeId}
    {signal : Option Signal} {completion : Completion} {final : Machine}
    (ended : program.run depth scope ⟨store, signal, some events⟩ = some (completion, final)) :
    ∃ wider events', made <+: wider ∧ final.journal = some events' ∧
      Ledger wider final.store events' ∧ completion.value.MadeIn wider := by
  let start : making.World := (made, ⟨store, signal, some events⟩)
  have sound : making.Sound start := ⟨events, rfl, ledger⟩
  have opened : making.Open start scope := trivial
  obtain ⟨⟨wider, _⟩, rfl, more, ⟨events', kept, after⟩, answer⟩ :=
    keeps_program program depth opened start List.prefix_rfl sound completion final ended
  refine ⟨wider, events', more, kept, after, ?_⟩
  obtain failed | known := outcome_of_answer answer
  · refine .of_plain ?_
    cases value : completion.value with
    | error fault => rfl
    | _ => rw [value] at failed; cases failed
  · exact known

end Conduct

end Monkey
