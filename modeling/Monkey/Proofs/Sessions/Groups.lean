/-
This file is about a text that is run in one session piece by piece. A group of
statements is a text that the prompt would run as it stands and that ends in a
semicolon, so nothing of it is pending when the next line starts. The text of
several groups is parsed to the statements of all of them, and evaluating these
goes through the groups in turn. An exit ends the text, and what comes after it
is not run; a group that finishes shows nothing, and leaves its bindings. It does
not matter whether the evaluation is interrupted: the flag is looked at as often.
-/

import Monkey.Proofs.Grammar.Joining
import Monkey.Proofs.Sessions.Requests
import Monkey.Prompt.Gathering

namespace Monkey

open Token (tally EndsIn scan)

/-! ### Texts that are whole -/

/-- What starts with a colon has an illegal token, so no program is taken for a command. -/
theorem CommandLine.parse?_of_legal {source : String}
    (legal : ∀ token ∈ scan source, token.tag ≠ .illegal) : CommandLine.parse? source = none := by
  unfold CommandLine.parse?
  split
  · rename_i rest starts
    have inside : ':' ∈ source.toList := by
      refine (List.dropWhile_sublist Text.isWhite).subset (?_ : ':' ∈ Text.trimStart source.toList)
      rw [starts]
      exact List.mem_cons_self
    have colon : (0x3a : UInt8) ∈ Token.bytesOf source := by
      rw [← String.ofList_toList (s := source), Token.bytesOf_ofList]
      exact List.mem_flatMap.mpr ⟨':', inside, by decide⟩
    have known := (Token.layout_scanBytes _).inAlphabet legal _ colon
    unfold Token.InAlphabet at known
    exact absurd known (by decide)
  · rfl

/-- The excess of some tokens is what is left of their tallies. -/
theorem Prompt.excess_eq (tokens : List Token) :
    Prompt.excess tokens = tally .leftParen tokens + tally .leftBrace tokens -
      tally .rightParen tokens - tally .rightBrace tokens := by
  induction tokens with
  | nil => rfl
  | cons token rest inductionHypothesis =>
    simp only [Prompt.excess, Prompt.weight, Token.tally_cons, inductionHypothesis]
    cases token.tag <;> simp <;> omega

/-- A text that parses, that the prompt would run as it stands, and that ends in a semicolon. -/
structure StatementGroup (source : String) : Prop where
  clean : (Program.parse source).diagnostics = []
  ends : EndsIn .semicolon (scan source)
  whole : Prompt.needsMore source = false

/-- A text without diagnostics derives from all of its tokens. -/
theorem derives_of_clean {source : String} (clean : (Program.parse source).diagnostics = []) :
    Grammar.Derives (.statements (Program.parse source).program.statements) (scan source) [] := by
  obtain ⟨rest, accepted⟩ := (ofTokens_eq_iff _ _).mp (ofTokens_of_clean clean)
  exact Grammar.derives_of_accepts (fun _ member => Token.tag_ne_endOfInput member) accepted

/-- A text without diagnostics is no command. -/
theorem CommandLine.parse?_of_clean {source : String}
    (clean : (Program.parse source).diagnostics = []) : CommandLine.parse? source = none := by
  obtain ⟨taken, same, movable⟩ := (derives_of_clean clean).moves
  rw [List.append_nil] at same
  exact CommandLine.parse?_of_legal (same ▸ movable.legal)

/-- In a group as many braces are closed as were opened. -/
theorem StatementGroup.complete {source : String} (group : StatementGroup source) :
    Grammar.Complete (scan source) := by
  obtain ⟨spanned, alike, nested⟩ := (derives_of_clean group.clean).bracketed
  rw [List.append_nil] at alike
  subst alike
  have program := CommandLine.parse?_of_clean group.clean
  have whole := group.whole
  simp only [Prompt.needsMore, program, Option.isNone_none, Bool.true_and,
    decide_eq_false_iff_not, Prompt.excess_eq] at whole
  have parentheses : tally .leftParen (scan source) = tally .rightParen (scan source) :=
    nested.parentheses
  have braces : tally .rightBrace (scan source) ≤ tally .leftBrace (scan source) := nested.braces
  exact ⟨group.ends, by omega⟩

/-! ### Groups in one text -/

/-- The groups and the last text, each on a line of its own. -/
def groupedText (groups : List String) (last : String) : String :=
  groups.foldr (fun group rest => group ++ "\n" ++ rest) last

/-- After a group, a text is parsed as it is alone. -/
theorem parse_group {group : String} (grouped : StatementGroup group) (rest : String) :
    Program.parse (group ++ "\n" ++ rest) =
      ⟨⟨(Program.parse group).program.statements ++ (Program.parse rest).program.statements⟩,
        (Program.parse rest).diagnostics⟩ := by
  have newline : "\n" = Token.spelling [0x0a] := by decide
  unfold Program.parse
  rw [newline, Token.scan_separated rfl]
  exact ofTokens_append (fun _ member => Token.tag_ne_endOfInput member)
    (ofTokens_of_clean grouped.clean) grouped.complete

/-- The text of groups has the diagnostics of what stands at its end, and a statement if that has
one. -/
theorem parse_groupedText {groups : List String} (last : String)
    (grouped : ∀ group ∈ groups, StatementGroup group) :
    (Program.parse (groupedText groups last)).diagnostics = (Program.parse last).diagnostics ∧
      ((Program.parse last).program.statements ≠ [] →
        (Program.parse (groupedText groups last)).program.statements ≠ []) := by
  induction groups with
  | nil => exact ⟨rfl, id⟩
  | cons group groups inductionHypothesis =>
    obtain ⟨first, others⟩ := List.forall_mem_cons.mp grouped
    obtain ⟨diagnostics, statements⟩ := inductionHypothesis others
    have parsed := parse_group first (groupedText groups last)
    refine ⟨(congrArg Parsed.diagnostics parsed).trans diagnostics, fun some => ?_⟩
    rw [groupedText, List.foldr_cons, ← groupedText, parsed]
    exact List.append_ne_nil_of_right_ne_nil _ (statements some)

/-! ### How a block ends -/

theorem Completion.ofValue_of_isExit {value : Value} (exits : value.isExit = true) :
    ofValue value = .stopped value.unwrapped := by
  cases value with
  | returned _ | error _ => rfl
  | _ => cases exits

theorem Completion.ofValue_of_not_isExit {value : Value} (stays : value.isExit = false) :
    ofValue value = .finished value := by
  cases value with
  | returned _ | error _ => cases stays
  | _ => rfl

/-! ### Sessions -/

namespace Session

variable {session : Session} {depth : Nat} {block : List Statement} {machine : Machine}

theorem ready_machine (session : Session) : session.machine.Ready where
  lowered := by
    show (session.signal.map Signal.lowered).map Signal.lowered = session.signal.map Signal.lowered
    cases session.signal <;> rfl
  silent := rfl

/-- The next evaluation goes on from where the last one came to. -/
theorem machine_after (ready : machine.Ready) : (session.after machine).machine = machine := by
  obtain ⟨store, signal, journal⟩ := machine
  obtain ⟨lowered, rfl⟩ := ready
  exact congrArg (Machine.mk store · none) lowered

theorem evaluate_of_eq_none (nothing : Evaluation.statements (Evaluation.call depth) session.scope
    .null block session.machine = none) : session.evaluate depth ⟨block⟩ = none := by
  have run : (Program.mk block).run depth session.scope session.machine = none :=
    Run.bind_of_eq_none nothing
  rw [evaluate_eq, run]
  rfl

theorem evaluate_of_eq_some {value : Value}
    (found : Evaluation.statements (Evaluation.call depth) session.scope .null block
      session.machine = some (value, machine)) :
    session.evaluate depth ⟨block⟩ = some (.ofValue value, session.after machine) := by
  have run : (Program.mk block).run depth session.scope session.machine =
      some (.ofValue value, machine) := Run.bind_of_eq_some found
  rw [evaluate_eq, run]
  rfl

/-- The statements of two programs are evaluated as the one program and then the other, unless the
first is stopped. -/
theorem evaluate_append (session : Session) (depth : Nat) (first : List Statement)
    {second : List Statement} (some : second ≠ []) :
    session.evaluate depth ⟨first ++ second⟩ = (do
      match ← session.evaluate depth ⟨first⟩ with
      | (.stopped value, after) => return (.stopped value, after)
      | (.finished _, after) => after.evaluate depth ⟨second⟩) := by
  have together : Evaluation.statements (Evaluation.call depth) session.scope .null
      (first ++ second) = _ := Evaluation.statements_append rfl first second
  cases begun : Evaluation.statements (Evaluation.call depth) session.scope .null first
      session.machine with
  | none =>
    have whole := (congrFun together _).trans (Run.bind_of_eq_none begun)
    rw [evaluate_of_eq_none begun, evaluate_of_eq_none whole]
    rfl
  | some taken =>
    obtain ⟨value, machine⟩ := taken
    have whole := (congrFun together _).trans (Run.bind_of_eq_some begun)
    rw [evaluate_of_eq_some begun]
    cases exits : value.isExit with
    | true =>
      rw [exits, if_pos rfl] at whole
      rw [evaluate_of_eq_some whole, Completion.ofValue_of_isExit exits]
      rfl
    | false =>
      rw [exits, if_neg Bool.false_ne_true, Evaluation.statements_latest some value .null] at whole
      rw [Completion.ofValue_of_not_isExit exits]
      show _ = (session.after machine).evaluate depth ⟨second⟩
      -- The flag is lowered when the first program ends, so lowering it again changes nothing.
      have calls : HoldsOfCalls Run.KeepsReady (Evaluation.call depth) :=
        Run.compositional_keepsReady.call depth
      have ready : machine.Ready := Run.compositional_keepsReady.statements calls session.scope
        .null first _ _ _ session.ready_machine begun
      have resumed : Evaluation.statements (Evaluation.call depth) session.scope .null second
          (session.after machine).machine = Evaluation.statements (Evaluation.call depth)
            session.scope .null (first ++ second) session.machine := by
        rw [machine_after ready, whole]
      cases ended : Evaluation.statements (Evaluation.call depth) session.scope .null
          (first ++ second) session.machine with
      | none => rw [evaluate_of_eq_none ended, evaluate_of_eq_none (resumed.trans ended)]
      | some taken =>
        obtain ⟨final, last⟩ := taken
        rw [evaluate_of_eq_some ended, evaluate_of_eq_some (resumed.trans ended)]
        rfl

end Session

/-! ### Inputs -/

/-- Whether a program shows its value is up to its last statement. -/
theorem Program.reply_append (first : List Statement) {second : List Statement}
    (some : second ≠ []) : (Program.mk (first ++ second)).reply = (Program.mk second).reply := by
  obtain ⟨last, found⟩ := Option.ne_none_iff_exists'.mp (mt List.getLast?_eq_none_iff.mp some)
  have shows : (Program.mk (first ++ second)).showsValue = (Program.mk second).showsValue := by
    unfold showsValue
    rw [List.getLast?_append, found, Option.some_or]
  funext completion
  cases completion with
  | stopped value => rfl
  | finished value => rw [reply, reply, shows]

namespace Session

/-- Takes the groups as one input each and then the last input. A group that is stopped is the
last one to be taken. -/
def runGroups (depth : Nat) (last : String) (session : Session) :
    List String → Option (Reply × Session)
  | [] => session.run depth last
  | group :: groups => do
    let (completion, _) ← session.evaluate depth (Program.parse group).program
    let (reply, after) ← session.run depth group
    match completion with
    | .stopped _ => return (reply, after)
    | .finished _ => runGroups depth last after groups

/-- A text of statement groups, and of statements at its end, comes to what its groups come to as
one input each, and leaves the session in the same state. -/
theorem run_groupedText (session : Session) (depth : Nat) {groups : List String} {last : String}
    (grouped : ∀ group ∈ groups, StatementGroup group)
    (clean : (Program.parse last).diagnostics = [])
    (some : (Program.parse last).program.statements ≠ []) :
    session.run depth (groupedText groups last) = session.runGroups depth last groups := by
  induction groups generalizing session with
  | nil => rfl
  | cons group groups inductionHypothesis =>
    obtain ⟨first, others⟩ := List.forall_mem_cons.mp grouped
    obtain ⟨diagnostics, statements⟩ := parse_groupedText last others
    have cleanRest := diagnostics.trans clean
    have someRest := statements some
    have parsed : Program.parse (groupedText (group :: groups) last) = _ :=
      parse_group first (groupedText groups last)
    have cleanWhole := (congrArg Parsed.diagnostics parsed).trans cleanRest
    rw [run_of_clean session depth cleanWhole, parsed, Program.reply_append _ someRest,
      evaluate_append _ _ _ someRest, runGroups, run_of_clean session depth first.clean]
    cases session.evaluate depth (Program.parse group).program with
    | none => rfl
    | some ended =>
      obtain ⟨completion, after⟩ := ended
      cases completion with
      | stopped value => rfl
      | finished value =>
        show _ = after.runGroups depth last groups
        rw [← inductionHypothesis after others, run_of_clean after depth cleanRest]
        rfl

/-- A closure over a name that is bound anew in the next group, which an error stops. -/
theorem run_groupedText_stopped :
    let groups := ["let n = 1; let f = fn() { n };", "let n = 2;\nf() + true;"]
    (∀ group ∈ groups, StatementGroup group) ∧ (Program.parse "n").diagnostics = [] ∧
      (Program.parse "n").program.statements ≠ [] ∧
      Session.plain.run 9 (groupedText groups "n") = Session.plain.runGroups 9 "n" groups := by
  intro groups
  have grouped : ∀ group ∈ groups, StatementGroup group := by
    refine List.forall_mem_cons.mpr ⟨⟨?_, ?_, ?_⟩, List.forall_mem_singleton.mpr ⟨?_, ?_, ?_⟩⟩ <;>
      decide +kernel
  have clean : (Program.parse "n").diagnostics = [] := by decide +kernel
  have some : (Program.parse "n").program.statements ≠ [] := by
    intro nothing
    have counted := congrArg List.length nothing
    revert counted
    decide +kernel
  exact ⟨grouped, clean, some, run_groupedText _ _ grouped clean some⟩

end Session

end Monkey
