/-
This file says what a session forgets. An input with diagnostics is refused and
leaves the session as it was. A reset leaves the old scopes in the store, and
functions in them, but the inputs to come are evaluated in a new scope, from which
none of the old ones is seen. So after a reset a session is one that was just
opened, up to the numbers of its scopes and its functions; and these do not show.

What a history of requests shows is a transcript. Refused inputs can be taken out
of a transcript, and so can everything up to a reset if nothing is interrupted: a
flag that is raised at some look to come is raised at another one if looks are
taken out.
-/

import Monkey.Proofs.Mirroring.Relocation
import Monkey.Proofs.Sessions.Requests

namespace Monkey

/-! ### What is shown -/

/-- What can be seen of a response. -/
inductive Shown where
  | value (kind : Kind) (text : String)
  | nothing
  | diagnostics (diagnostics : List Diagnostic)
  | names (names : List String)
deriving DecidableEq

def Value.shown (value : Value) : Shown :=
  .value value.kind value.text

namespace Session

def Response.shown : Response → Shown
  | .reply (.value shown) => shown.shown
  | .value (some found) => found.shown
  | .reply .silence | .value none | .done => .nothing
  | .reply (.refusal noted) => .diagnostics noted
  | .names listed => .names listed

/-- The requests show what stands next to them, and leave the last session. -/
def Shows (depth : Nat) (session : Session) (entries : List (Request × Shown)) (last : Session) :
    Prop :=
  ∃ responses, session.respondAll depth (entries.map Prod.fst) = some (responses, last) ∧
    responses.map Response.shown = entries.map Prod.snd

/-- What the requests to a new session show. -/
def Transcript (signal : Option Signal) (depth : Nat) (entries : List (Request × Shown)) : Prop :=
  ∃ last, Shows depth (opening signal) entries last

theorem transcript_iff {signal : Option Signal} {depth : Nat} {entries : List (Request × Shown)} :
    Transcript signal depth entries ↔
      ((opening signal).respondAll depth (entries.map Prod.fst)).map
        (fun taken => taken.1.map Response.shown) = some (entries.map Prod.snd) := by
  rw [Option.map_eq_some_iff]
  constructor
  · rintro ⟨last, responses, taken, same⟩
    exact ⟨(responses, last), taken, same⟩
  · rintro ⟨⟨responses, last⟩, taken, same⟩
    exact ⟨last, responses, taken, same⟩

instance (signal : Option Signal) (depth : Nat) (entries : List (Request × Shown)) :
    Decidable (Transcript signal depth entries) :=
  decidable_of_iff _ transcript_iff.symm

section Shows

variable {depth : Nat} {session last : Session} {entries rest : List (Request × Shown)}

theorem shows_nil : Shows depth session [] last ↔ last = session := by
  constructor
  · rintro ⟨responses, taken, _⟩
    cases taken
    rfl
  · rintro rfl
    exact ⟨[], rfl, rfl⟩

theorem shows_cons {request : Request} {shown : Shown} :
    Shows depth session ((request, shown) :: rest) last ↔
      ∃ response next, session.respond depth request = some (response, next) ∧
        response.shown = shown ∧ Shows depth next rest last := by
  constructor
  · rintro ⟨responses, taken, same⟩
    obtain ⟨response, next, others, responded, further, rfl⟩ := respondAll_cons_eq_some.mp taken
    obtain ⟨first, others⟩ := List.cons.inj same
    exact ⟨response, next, responded, first, _, further, others⟩
  · rintro ⟨response, next, responded, rfl, others, further, same⟩
    exact ⟨response :: others,
      respondAll_cons_eq_some.mpr ⟨response, next, others, responded, further, rfl⟩,
      congrArg _ same⟩

/-- Requests after others are taken by the session that these leave. -/
theorem shows_append :
    Shows depth session (entries ++ rest) last ↔
      ∃ middle, Shows depth session entries middle ∧ Shows depth middle rest last := by
  induction entries generalizing session with
  | nil =>
    simp only [List.nil_append, shows_nil, exists_eq_left]
  | cons entry entries inductionHypothesis =>
    obtain ⟨request, shown⟩ := entry
    rw [List.cons_append, shows_cons]
    constructor
    · rintro ⟨response, next, responded, same, further⟩
      obtain ⟨middle, begun, ended⟩ := inductionHypothesis.mp further
      exact ⟨middle, shows_cons.mpr ⟨response, next, responded, same, begun⟩, ended⟩
    · rintro ⟨middle, begun, ended⟩
      obtain ⟨response, next, responded, same, further⟩ := shows_cons.mp begun
      exact ⟨response, next, responded, same, inductionHypothesis.mpr ⟨middle, further, ended⟩⟩

end Shows

/-! ### What is shown of mirrored values -/

section Shown

variable {scopes closures : Nat} {regions : List (Mirror.relocation scopes closures).Region}

theorem shown_of_values {value value' : Value}
    (alike : (Mirror.relocation scopes closures).Values regions value value') :
    value'.shown = value.shown :=
  congrArg₂ Shown.value alike.kind (Mirror.text_of_relocated alike)

theorem shown_of_found {found found' : Option Value}
    (alike : Option.Rel ((Mirror.relocation scopes closures).Values regions) found found') :
    (Response.value found').shown = (Response.value found).shown := by
  cases alike with
  | none => rfl
  | some one => exact shown_of_values one

theorem shown_of_completions {completion completion' : Completion}
    (alike : completion.Like ((Mirror.relocation scopes closures).Closures regions) completion')
    {program : Program} :
    (Response.reply (program.reply completion')).shown =
      (Response.reply (program.reply completion)).shown := by
  cases alike with
  | stopped inner => exact shown_of_values inner
  | finished inner =>
    unfold Program.reply
    cases program.showsValue with
    | true => exact shown_of_values inner
    | false => rfl

end Shown

/-! ### Two sessions side by side -/

/-- What the one session can see is found in the store of the other. -/
structure Mirrored (scopes closures : Nat) (session session' : Session) : Prop where
  stores : ∃ regions,
    (Mirror.relocation scopes closures).Stores regions session.store session'.store
  present : session.scope < session.store.scopes.size
  scope : session'.scope = scopes + session.scope
  signal : session'.machine.signal = session.machine.signal

namespace Mirrored

variable {scopes closures : Nat} {session session' : Session} {depth : Nat}

/-- A session that was just opened is found in one that was reset. -/
theorem opening_reset (session : Session) {signal : Option Signal}
    (same : session.machine.signal = (opening signal).machine.signal) :
    Mirrored session.store.scopes.size session.store.closures (opening signal) session.reset where
  stores := (Mirror.stores_empty session.store).create
  present := Nat.one_pos
  scope := rfl
  signal := same

theorem reset (mirrored : Mirrored scopes closures session session') :
    Mirrored scopes closures session.reset session'.reset where
  stores := by
    obtain ⟨regions, stores⟩ := mirrored.stores
    exact stores.create
  present := session.present_reset
  scope := by
    obtain ⟨_, stores⟩ := mirrored.stores
    exact (stores.scopes 0).symm
  signal := mirrored.signal

/-- A program is evaluated alike in both sessions. -/
theorem evaluate (mirrored : Mirrored scopes closures session session') (depth : Nat)
    (program : Program) :
    (session.evaluate depth program = none ∧ session'.evaluate depth program = none) ∨
    ∃ regions completion completion' after after', Mirrored scopes closures after after' ∧
      completion.Like ((Mirror.relocation scopes closures).Closures regions) completion' ∧
      session.evaluate depth program = some (completion, after) ∧
      session'.evaluate depth program = some (completion', after') := by
  obtain ⟨⟨regions, stores⟩, present, scope, signal⟩ := mirrored
  have known := List.getElem?_eq_getElem (stores.size ▸ present)
  have machine : session'.machine = ⟨session'.store, session.machine.signal, none⟩ := by
    rw [← signal]
    rfl
  rw [evaluate_eq, evaluate_eq, machine, scope]
  obtain ⟨nothing, nothing'⟩ | ⟨more, completion, completion', final, final', left, wider, alike,
    stores', ended, ended'⟩ := Mirror.coupled_program (Mirror.relocation scopes closures) program
      program depth known rfl regions List.prefix_rfl _ _ session.machine.signal stores
  · exact .inl ⟨Option.map_eq_none_iff.mpr nothing, Option.map_eq_none_iff.mpr nothing'⟩
  · refine .inr ⟨more, completion, completion', ⟨final, session.scope, left⟩,
      ⟨final', session'.scope, left⟩, ⟨⟨more, stores'⟩, ?_, scope, rfl⟩,
      alike, Option.map_eq_some_iff.mpr ⟨_, ended, rfl⟩,
      Option.map_eq_some_iff.mpr ⟨_, ended', rfl⟩⟩
    exact Nat.lt_of_lt_of_le present (stores.size ▸ stores'.size ▸ wider.length_le)

/-- A request shows the same in both sessions. -/
theorem respond (mirrored : Mirrored scopes closures session session') (depth : Nat)
    (request : Request) :
    (session.respond depth request = none ∧ session'.respond depth request = none) ∨
    ∃ response response' after after', Mirrored scopes closures after after' ∧
      response'.shown = response.shown ∧ session.respond depth request = some (response, after) ∧
      session'.respond depth request = some (response', after') := by
  cases request with
  | reset => exact .inr ⟨_, _, _, _, mirrored.reset, rfl, rfl, rfl⟩
  | value name =>
    refine .inr ⟨_, _, _, _, mirrored, ?_, rfl, rfl⟩
    obtain ⟨regions, stores⟩ := mirrored.stores
    have known := List.getElem?_eq_getElem (stores.size ▸ mirrored.present)
    have found : Option.Rel ((Mirror.relocation scopes closures).Values regions)
        (session.get? name) (session'.get? name) := by
      unfold Session.get?
      rw [mirrored.scope]
      exact stores.get? known trivial
    exact shown_of_found found
  | names stem =>
    refine .inr ⟨_, _, _, _, mirrored, ?_, rfl, rfl⟩
    obtain ⟨regions, stores⟩ := mirrored.stores
    have names : session'.namesWithStem stem = session.namesWithStem stem := by
      unfold Session.namesWithStem
      rw [mirrored.scope]
      exact stores.namesWithStem (stores.size ▸ mirrored.present) stem
    exact congrArg Shown.names names
  | run source =>
    by_cases clean : (Program.parse source).diagnostics = []
    · simp only [Session.respond, run_of_clean _ depth clean]
      obtain ⟨nothing, nothing'⟩ | ⟨regions, completion, completion', after, after', next, alike,
        evaluated, evaluated'⟩ := mirrored.evaluate depth (Program.parse source).program
      · exact .inl ⟨by rw [nothing]; rfl, by rw [nothing']; rfl⟩
      · exact .inr ⟨_, _, after, after', next, shown_of_completions alike,
          by rw [evaluated]; rfl, by rw [evaluated']; rfl⟩
    · simp only [Session.respond, run_of_refused _ depth clean]
      exact .inr ⟨_, _, _, _, mirrored, rfl, rfl, rfl⟩

/-- So do requests in a row. -/
theorem shows_iff (mirrored : Mirrored scopes closures session session')
    {entries : List (Request × Shown)} :
    (∃ last, Shows depth session entries last) ↔ ∃ last, Shows depth session' entries last := by
  induction entries generalizing session session' with
  | nil =>
    simp only [shows_nil, exists_eq]
  | cons entry entries inductionHypothesis =>
    obtain ⟨request, shown⟩ := entry
    simp only [shows_cons]
    obtain ⟨nothing, nothing'⟩ | ⟨response, response', after, after', next, same, responded,
      responded'⟩ := mirrored.respond depth request
    · simp only [nothing, nothing', reduceCtorEq, false_and, exists_false]
    · simp only [responded, responded', Option.some.injEq, Prod.mk.injEq]
      constructor
      · rintro ⟨last, _, _, ⟨rfl, rfl⟩, rfl, further⟩
        obtain ⟨last', further'⟩ := (inductionHypothesis next).mp ⟨last, further⟩
        exact ⟨last', _, _, ⟨rfl, rfl⟩, same, further'⟩
      · rintro ⟨last', _, _, ⟨rfl, rfl⟩, rfl, further'⟩
        obtain ⟨last, further⟩ := (inductionHypothesis next).mpr ⟨last', further'⟩
        exact ⟨last, _, _, ⟨rfl, rfl⟩, same.symm, further⟩

end Mirrored

/-! ### Histories -/

/-- Evaluations start from the same signal for good, if nobody raises the flag during one. -/
theorem signal_of_shows {depth : Nat} {session last : Session} {entries : List (Request × Shown)}
    (undisturbed : session.Undisturbed) (shows : Shows depth session entries last) :
    last.machine.signal = session.machine.signal := by
  induction entries generalizing session with
  | nil => rw [shows_nil.mp shows]
  | cons entry entries inductionHypothesis =>
    obtain ⟨response, next, responded, _, further⟩ := shows_cons.mp shows
    obtain ⟨still, same⟩ := undisturbed_of_respond undisturbed responded
    exact (inductionHypothesis still further).trans same

/-- An input with diagnostics shows just these, and the rest of the history is as it is without it,
whenever it is interrupted. A reset shows nothing, and the rest of a history that is not interrupted
is as it is from the start. -/
theorem history_leaves_no_trace (depth : Nat) (before after : List (Request × Shown)) :
    (∀ (signal : Option Signal) source shown, (Program.parse source).diagnostics ≠ [] →
      (Transcript signal depth (before ++ (.run source, shown) :: after) ↔
        shown = .diagnostics (Program.parse source).diagnostics ∧
          Transcript signal depth (before ++ after))) ∧
      ∀ (flag : Option Bool) shown,
        Transcript (flag.map .undisturbed) depth (before ++ (.reset, shown) :: after) ↔
          shown = .nothing ∧ Transcript (flag.map .undisturbed) depth before ∧
            Transcript (flag.map .undisturbed) depth after := by
  unfold Transcript
  simp only [shows_append, shows_cons]
  refine ⟨fun signal source shown refused => ?_, fun flag shown => ?_⟩
  · simp only [respond, run_of_refused _ depth refused, Option.map_some, Option.some.injEq,
      Prod.mk.injEq]
    constructor
    · rintro ⟨last, middle, begun, _, _, ⟨rfl, rfl⟩, rfl, ended⟩
      exact ⟨rfl, last, middle, begun, ended⟩
    · rintro ⟨rfl, last, middle, begun, ended⟩
      exact ⟨last, middle, begun, _, _, ⟨rfl, rfl⟩, rfl, ended⟩
  -- All that the rest keeps of the session before is by how much its numbers are higher.
  · have undisturbed : (opening (flag.map .undisturbed)).Undisturbed := ⟨flag, rfl⟩
    simp only [respond, Option.some.injEq, Prod.mk.injEq]
    constructor
    · rintro ⟨last, middle, begun, _, _, ⟨rfl, rfl⟩, rfl, ended⟩
      have forgotten := Mirrored.opening_reset middle (signal_of_shows undisturbed begun)
      exact ⟨rfl, ⟨middle, begun⟩, forgotten.shows_iff.mpr ⟨last, ended⟩⟩
    · rintro ⟨rfl, ⟨middle, begun⟩, ended⟩
      have forgotten := Mirrored.opening_reset middle (signal_of_shows undisturbed begun)
      obtain ⟨last, ended⟩ := forgotten.shows_iff.mp ended
      exact ⟨last, middle, begun, _, _, ⟨rfl, rfl⟩, rfl, ended⟩

/-- A function that is found in its own scope, and forgotten before a refused input. -/
theorem history_leaves_no_trace_recursive :
    let before : List (Request × Shown) := [(.run "let f = fn() { f };", .nothing),
      (.names "", .names ["f"]), (.run "f() == f", .value .boolean "true")]
    let after : List (Request × Shown) := [(.names "", .names []),
      (.run "let g = fn(x) { x }; g(g) == g", .value .boolean "true")]
    let refused := (.run "let", .diagnostics (Program.parse "let").diagnostics)
    (Program.parse "let").diagnostics ≠ [] ∧ Transcript none 9 before ∧ Transcript none 9 after ∧
      Transcript none 9 (before ++ (.reset, .nothing) :: refused :: after) := by
  intro before after refused
  have noted : (Program.parse "let").diagnostics ≠ [] := by decide +kernel
  have first : Transcript none 9 before := by decide +kernel
  have second : Transcript none 9 after := by decide +kernel
  have third : Transcript none 9 (refused :: after) :=
    ((history_leaves_no_trace 9 [] after).1 none "let" _ noted).mpr ⟨rfl, second⟩
  exact ⟨noted, first, second,
    ((history_leaves_no_trace 9 before (refused :: after)).2 none _).mpr ⟨rfl, first, third⟩⟩

end Session

end Monkey
