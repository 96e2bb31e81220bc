/-
This file is about the names that are bound in a session. They are bound in a scope
that lies in no other, by the `let` statements of its inputs, so each is a name that
was read from a source. Requests do not bring in any other, even if an evaluation is
interrupted, and a reset leaves none.
-/

import Monkey.Proofs.Evaluation.Isolation
import Monkey.Proofs.Reading.Leaves
import Monkey.Proofs.Sessions.Requests
import Monkey.Proofs.Stores.Listing

namespace Monkey

namespace Session

variable {session next last : Session} {depth : Nat}

/-- The scope of the session lies in no other, and binds nothing but names. -/
def BindsNames (session : Session) : Prop :=
  ∃ found, session.store.scopes[session.scope]? = some found ∧ found.outer = none ∧
    ∀ name value, found.find? name = some value → IsName name

theorem bindsNames_reset (session : Session) : session.reset.BindsNames := by
  refine ⟨⟨[], none⟩, ?_, rfl, nofun⟩
  show (session.store.scopes.push _)[session.store.scopes.size]? = _
  rw [Array.getElem?_push, if_pos rfl]

theorem bindsNames_opening (signal : Option Signal) : (opening signal).BindsNames :=
  ⟨⟨[], none⟩, rfl, rfl, nofun⟩

/-- Evaluating a program whose names are legal binds legal names only. -/
theorem bindsNames_of_evaluate {program : Program} {completion : Completion}
    (binds : session.BindsNames) (legal : AllLegal program.leaves)
    (evaluated : session.evaluate depth program = some (completion, next)) : next.BindsNames := by
  obtain ⟨found, present, outermost, named⟩ := binds
  rw [evaluate_eq, Option.map_eq_some_iff] at evaluated
  obtain ⟨⟨ended, machine⟩, ran, same⟩ := evaluated
  cases same
  have isolated := (Run.compositional_takes.program program depth session.scope).isolates _ _ _ ran
  obtain ⟨changed, there, extended⟩ := isolated.own found present
  refine ⟨changed, there, extended.outer.trans outermost, fun name value bound => ?_⟩
  by_cases written : name ∈ namesBoundBy program.statements
  · exact legal (.name name)
      ((namesBoundBy_sublist _).subset (List.mem_map_of_mem written))
  · rw [extended.others name written] at bound
    exact named name value bound

theorem bindsNames_of_respond {request : Request} {response : Response}
    (binds : session.BindsNames)
    (responded : session.respond depth request = some (response, next)) :
    next.BindsNames := by
  cases request with
  | reset =>
    cases responded
    exact session.bindsNames_reset
  | value name | names stem =>
    cases responded
    exact binds
  | run source =>
    by_cases clean : (Program.parse source).diagnostics = []
    · simp only [respond, run_of_clean _ depth clean, Option.map_map,
        Option.map_eq_some_iff] at responded
      obtain ⟨⟨completion, after⟩, evaluated, same⟩ := responded
      cases same
      exact bindsNames_of_evaluate binds (allLegal_parse source) evaluated
    · simp only [respond, run_of_refused _ depth clean] at responded
      cases responded
      exact binds

theorem bindsNames_of_respondAll {requests : List Request} {responses : List Response}
    (binds : session.BindsNames)
    (responded : session.respondAll depth requests = some (responses, last)) :
    last.BindsNames := by
  induction requests generalizing session responses with
  | nil =>
    cases responded
    exact binds
  | cons request rest inductionHypothesis =>
    obtain ⟨response, next, others, one, further, rfl⟩ := respondAll_cons_eq_some.mp responded
    exact inductionHypothesis (bindsNames_of_respond binds one) further

/-- What is seen from the scope of the session is bound in it. -/
theorem isName_of_get? (binds : session.BindsNames) {name : String} {value : Value}
    (bound : session.get? name = some value) : IsName name := by
  obtain ⟨found, present, outermost, named⟩ := binds
  have alone : session.store.chain session.scope = [found] := by
    unfold Store.chain Store.chainWithin
    simp only [present, outermost]
  unfold get? Store.get? at bound
  rw [alone, List.findSome?_singleton] at bound
  exact named name value bound

end Session

/-- Names and integers are legal wherever they stand in a program that was read, also if there are
diagnostics. So all names are legal that are bound in a session, whatever was requested, and
whenever it was interrupted. -/
theorem leaves_are_legal :
    (∀ source, ∀ leaf ∈ (Program.parse source).program.leaves, leaf.Legal) ∧
      ∀ (signal : Option Signal) (depth : Nat) (requests : List Session.Request)
        (responses : List Session.Response) (last : Session),
        (Session.opening signal).respondAll depth requests = some (responses, last) →
          (∀ name value, last.get? name = some value → IsName name) ∧
            ∀ stem, ∀ name ∈ last.namesWithStem stem, IsName name := by
  refine ⟨allLegal_parse, fun signal depth requests responses last responded => ?_⟩
  have binds := Session.bindsNames_of_respondAll (Session.bindsNames_opening signal) responded
  refine ⟨fun name value => Session.isName_of_get? binds, fun stem name listed => ?_⟩
  obtain ⟨_, bound⟩ := Store.mem_namesWithStem.mp listed
  obtain ⟨value, found⟩ := Option.isSome_iff_exists.mp bound
  exact Session.isName_of_get? binds found

/-- A name that stays bound when its input is interrupted before the next name and a later input is
refused. -/
theorem leaves_are_legal_refused :
    let signal : Option Signal := some ⟨false, [false, true]⟩
    let requests : List Session.Request :=
      [.run "let odd? = fn(n) { 7 }; let even? = odd?;", .run "let 5 = odd?"]
    ∃ responses last value,
      (Session.opening signal).respondAll 9 requests = some (responses, last) ∧
        last.get? "even?" = none ∧ last.get? "odd?" = some value ∧ IsName "odd?" := by
  intro signal requests
  have known : ((Session.opening signal).respondAll 9 requests).map (fun taken =>
      ((taken.2.get? "even?").map Value.kind, (taken.2.get? "odd?").map Value.kind)) =
      some (none, some .function) := by decide +kernel
  obtain ⟨⟨responses, last⟩, responded, found⟩ := Option.map_eq_some_iff.mp known
  simp only [Prod.mk.injEq, Option.map_eq_none_iff, Option.map_eq_some_iff] at found
  obtain ⟨unbound, value, bound, _⟩ := found
  exact ⟨responses, last, value, responded, unbound, bound,
    (leaves_are_legal.2 signal 9 requests responses last responded).1 "odd?" value bound⟩

end Monkey
