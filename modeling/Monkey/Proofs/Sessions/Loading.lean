/-
This file is about the files that a session starts with. Up to the first bad one
they are run in order, like inputs of any other kind: an error or an early return
ends the file that it is in and no other, and so does an interruption. A file is
bad if it cannot be read or has diagnostics. The first bad one is reported and
ends the loading, and neither it nor a file after it is evaluated.
-/

import Monkey.Proofs.Sessions.Requests
import Monkey.Startup

namespace Monkey

/-! ### Good and bad files -/

/-- A file is bad if it cannot be read, or if what was read has diagnostics. -/
def Contents.Bad : Contents → Prop
  | .error _ => True
  | .ok source => (Program.parse source).diagnostics ≠ []

/-- The files are good ones with their sources, and then those from the first bad one on. -/
structure SplitsAtBad (files : List (String × Contents)) (good : List (String × String))
    (others : List (String × Contents)) : Prop where
  whole : files = good.map (fun file => (file.1, .ok file.2)) ++ others
  clean : ∀ file ∈ good, (Program.parse file.2).diagnostics = []
  bad : ∀ file ∈ others.head?, Contents.Bad file.2

/-- The files can be split at the first bad one. -/
theorem exists_splitsAtBad (files : List (String × Contents)) :
    ∃ good others, SplitsAtBad files good others := by
  induction files with
  | nil => exact ⟨[], [], rfl, List.forall_mem_nil _, nofun⟩
  | cons file files inductionHypothesis =>
    obtain ⟨name, contents⟩ := file
    have bad (found : contents.Bad) : SplitsAtBad ((name, contents) :: files) []
        ((name, contents) :: files) :=
      ⟨rfl, List.forall_mem_nil _, fun _ first => Option.some.inj first ▸ found⟩
    cases contents with
    | error failure => exact ⟨_, _, bad trivial⟩
    | ok source =>
      by_cases clean : (Program.parse source).diagnostics = []
      · obtain ⟨good, others, whole, cleanOthers, badOthers⟩ := inductionHypothesis
        exact ⟨(name, source) :: good, others, congrArg _ whole,
          List.forall_mem_cons.mpr ⟨clean, cleanOthers⟩, badOthers⟩
      · exact ⟨_, _, bad clean⟩

/-- The report on the first bad file, if there is one. -/
def badReport : List (String × Contents) → List Emission
  | [] => []
  | (name, .error failure) :: _ =>
    [.complaintLine (failedToLoad name ++ " " ++ failure.message)]
  | (name, .ok source) :: _ =>
    [.complaintLine (failedToLoad name), report (Program.parse source).diagnostics]

/-! ### Running files -/

/-- The value that a reply shows, if it shows one. -/
def Reply.value? : Reply → Option Value
  | .value found => some found
  | .silence | .refusal _ => none

/-- The values that replies show, or only the errors among them. -/
def shownValues (all : Bool) (replies : List Reply) : List Value :=
  (replies.filterMap Reply.value?).filter fun value => all || value.isError

theorem shownValues_cons (all : Bool) (reply : Reply) (replies : List Reply) :
    shownValues all (reply :: replies) = shownValues all [reply] ++ shownValues all replies := by
  unfold shownValues
  rw [← List.singleton_append, List.filterMap_append, List.filter_append]

/-- The lines that show some values. -/
def valueLines (values : List Value) : List Emission :=
  values.map fun value => .outputLine value.text

namespace Session

variable {depth : Nat} {files : List (String × Contents)} {good : List (String × String)}
  {others : List (String × Contents)}

/-- Runs sources in order, whatever each of them comes to. -/
def runAll (depth : Nat) (session : Session) : List String → Option (List Reply × Session)
  | [] => some ([], session)
  | source :: rest => do
    let (reply, next) ← session.run depth source
    let (replies, last) ← runAll depth next rest
    return (reply :: replies, last)

theorem not_refusal_of_clean {session after : Session} {source : String} {reply : Reply}
    (clean : (Program.parse source).diagnostics = [])
    (ran : session.run depth source = some (reply, after)) (diagnostics : List Diagnostic) :
    reply ≠ .refusal diagnostics := by
  rw [run_of_clean session depth clean, Option.map_eq_some_iff] at ran
  obtain ⟨⟨completion, _⟩, _, same⟩ := ran
  cases same
  unfold Program.reply
  split
  · exact nofun
  · split <;> exact nofun

/-- A good file is run, and its value is written if it is wanted or an error. -/
theorem load_of_clean (session : Session) (depth : Nat) (all : Bool) (name : String)
    {source : String} (clean : (Program.parse source).diagnostics = []) :
    session.load depth all name (.ok source) =
      (session.run depth source).map fun (reply, after) =>
        ⟨after, valueLines (shownValues all [reply]), true⟩ := by
  rw [load]
  cases ran : session.run depth source with
  | none => rfl
  | some ended =>
    obtain ⟨reply, after⟩ := ended
    cases reply with
    | value found =>
      have filtered : shownValues all [.value found] =
          bif all || found.isError then [found] else [] := List.filter_singleton
      simp only [Option.bind_eq_bind, Option.bind_some, Option.map_some, filtered]
      cases all || found.isError <;> rfl
    | silence => rfl
    | refusal diagnostics => exact absurd rfl (not_refusal_of_clean clean ran diagnostics)

/-- A bad file is reported and changes nothing. -/
theorem load_of_bad (session : Session) (depth : Nat) (all : Bool) {file : String × Contents}
    (bad : file.2.Bad) (others : List (String × Contents)) :
    session.load depth all file.1 file.2 = some ⟨session, badReport (file :: others), false⟩ := by
  obtain ⟨name, contents⟩ := file
  cases contents with
  | error failure => rfl
  | ok source =>
    rw [load, run_of_refused session depth bad]
    rfl

/-- The good files before the first bad one are run in order, and that one is reported. -/
theorem loadAll_eq (session : Session) (depth : Nat) (all : Bool)
    (splits : SplitsAtBad files good others) :
    session.loadAll depth all files =
      (session.runAll depth (good.map Prod.snd)).map fun (replies, last) =>
        ⟨last, valueLines (shownValues all replies) ++ badReport others, others.isEmpty⟩ := by
  obtain ⟨rfl, clean, bad⟩ := splits
  induction good generalizing session with
  | nil =>
    cases others with
    | nil => rfl
    | cons file others =>
      rw [List.map_nil, List.nil_append, loadAll,
        load_of_bad session depth all (bad file rfl) others]
      rfl
  | cons file good inductionHypothesis =>
    obtain ⟨here, there⟩ := List.forall_mem_cons.mp clean
    rw [List.map_cons, List.cons_append, loadAll, load_of_clean session depth all file.1 here,
      List.map_cons, runAll]
    cases session.run depth file.2 with
    | none => rfl
    | some ended =>
      obtain ⟨reply, next⟩ := ended
      simp only [Option.map_some, Option.bind_eq_bind, Option.bind_some, if_true,
        inductionHypothesis next there]
      cases next.runAll depth (good.map Prod.snd) with
      | none => rfl
      | some rest =>
        obtain ⟨replies, last⟩ := rest
        show some _ = some _
        simp only [shownValues_cons all reply replies, valueLines, List.map_append,
          List.append_assoc]

end Session

/-- Starting up runs the files before the first bad one in order, each with what it bound, and
nothing else. It has failed exactly if there is a bad one. -/
theorem Options.start_runs_in_order (options : Options) (depth : Nat) (read : String → Contents)
    (input : Contents) (session : Session) :
    options.sources read input =
        (if options.noInteractive = true ∧ options.files = [] then [("stdin", input)]
          else options.files.map fun name => (name, read name)) ∧
      ∃ good others, SplitsAtBad (options.sources read input) good others ∧
        options.start depth read input session =
          (session.runAll depth (good.map Prod.snd)).map fun (replies, last) =>
            { startup :=
                if others ≠ [] then .failed else if options.noInteractive then .exit else .prompt
              session := last
              emissions :=
                valueLines (shownValues options.noInteractive replies) ++ badReport others } := by
  constructor
  · unfold sources
    simp
  · obtain ⟨good, others, splits⟩ := exists_splitsAtBad (options.sources read input)
    refine ⟨good, others, splits, ?_⟩
    rw [start, session.loadAll_eq depth options.noInteractive splits]
    cases session.runAll depth (good.map Prod.snd) with
    | none => rfl
    | some ran => cases others <;> rfl

end Monkey
