/-
This file says which lines the prompt makes one text of. A command or a blank
line is a group by itself. Any other line starts a program, and the group of a
program is the shortest run of lines that closes what it opens, or all lines up
to the end if none does.

The prompt scans a growing text anew with each line. But a line break separates
tokens, so what a text opens is what its lines open, each scanned on its own; and
whether the text is a command is settled by its first line. So one line leaves the
prompt with a group that is still open or hands over a whole one, and by induction
on the lines the prompt takes the texts of the groups one after the other. A blank
text is nothing to it, and any other is answered in the session and kept. The lines
are divided in the same way whether or not an answer is interrupted.
-/

import Monkey.Prompt
import Monkey.Proofs.Prompting.Lines

namespace Monkey.Prompt

/-! ### Groups of lines -/

/-- By how much lines open more than they close, each scanned on its own. -/
def balance : List String → Int
  | [] => 0
  | line :: others => excess (Token.scan line) + balance others

/-- Whether a line is a group by itself. -/
def standsAlone (line : String) : Bool :=
  (CommandLine.parse? line).isSome || Text.isBlank line

/-- The text of a group: its lines with line breaks between them. -/
def joined (group : List String) : String :=
  "\n".intercalate group

/-- The first group, where these lines come after it. -/
inductive FirstGroup : List String → List String → Prop
  | alone {line : String} (rest : List String) (alone : standsAlone line = true) :
    FirstGroup [line] rest
  | program {line : String} {others rest : List String} (program : standsAlone line = false)
      (shortest : ∀ start, start <+: line :: others → start ≠ [] → balance start ≤ 0 →
        start = line :: others)
      (ended : balance (line :: others) ≤ 0 ∨ rest = []) : FirstGroup (line :: others) rest

/-- The groups of some lines. -/
inductive Divides : List (List String) → List String → Prop
  | nil : Divides [] []
  | cons {group rest : List String} {groups : List (List String)} (first : FirstGroup group rest)
      (others : Divides groups rest) : Divides (group :: groups) (group ++ rest)

variable {group rest lines pending : List String} {groups : List (List String)}

/-- Every line belongs to exactly one group. -/
theorem Divides.flatten (divides : Divides groups lines) : groups.flatten = lines := by
  induction divides with
  | nil => rfl
  | cons _ _ inductionHypothesis => rw [List.flatten_cons, inductionHypothesis]

/-! ### Gathering lines -/

/-- Whether some lines are a group whatever comes after them. -/
def complete : List String → Bool
  | [] => false
  | line :: others => standsAlone line || decide (balance (line :: others) ≤ 0)

/-- A group is a run of lines that is complete, or that the lines end with, and that was not
complete before. -/
theorem firstGroup_iff : FirstGroup group rest ↔
    group ≠ [] ∧ (∀ start, start <+: group → complete start = true → start = group) ∧
      (complete group = true ∨ rest = []) := by
  constructor
  · rintro (⟨_, alone⟩ | ⟨program, shortest, ended⟩)
    · refine ⟨List.cons_ne_nil _ _, fun start within full => ?_, .inl (by simp [complete, alone])⟩
      obtain rfl | ⟨others, rfl, nothing⟩ := List.prefix_cons_iff.mp within
      · cases full
      · rw [List.prefix_nil.mp nothing]
    · refine ⟨List.cons_ne_nil _ _, fun start within full => ?_, ?_⟩
      · obtain rfl | ⟨others, rfl, _⟩ := List.prefix_cons_iff.mp within
        · cases full
        · rw [complete, program, Bool.false_or, decide_eq_true_eq] at full
          exact shortest _ within (List.cons_ne_nil _ _) full
      · rwa [complete, program, Bool.false_or, decide_eq_true_eq]
  · rintro ⟨present, shortest, ended⟩
    obtain ⟨line, others, rfl⟩ := List.exists_cons_of_ne_nil present
    cases alone : standsAlone line with
    | true =>
      have whole := shortest [line] ⟨others, rfl⟩ (by simp [complete, alone])
      rw [← whole]
      exact .alone rest alone
    | false =>
      refine .program alone (fun start within some low => ?_) ?_
      · obtain rfl | ⟨more, rfl, _⟩ := List.prefix_cons_iff.mp within
        · exact absurd rfl some
        · exact shortest _ within (by simp [complete, low])
      · rwa [complete, alone, Bool.false_or, decide_eq_true_eq] at ended

/-- The first group is the only one that some lines begin with. -/
theorem FirstGroup.unique {other after : List String} (first : FirstGroup group rest)
    (second : FirstGroup other after) (same : group ++ rest = other ++ after) :
    group = other ∧ rest = after := by
  have shorter : ∀ {group rest other after : List String}, FirstGroup group rest →
      FirstGroup other after → group <+: other → group ++ rest = other ++ after →
        group = other := by
    intro group rest other after first second within same
    obtain ⟨_, _, full | rfl⟩ := firstGroup_iff.mp first
    · exact (firstGroup_iff.mp second).2.1 group within full
    · refine within.eq_of_length_le ?_
      have lengths := congrArg List.length same
      simp only [List.length_append, List.length_nil] at lengths
      omega
  have alike : group = other := by
    obtain within | within := List.prefix_or_prefix_of_prefix (List.prefix_append group rest)
      (same ▸ List.prefix_append other after)
    · exact shorter first second within same
    · exact (shorter second first within same.symm).symm
  subst alike
  exact ⟨rfl, List.append_cancel_left same⟩

/-- Gathers lines into groups, where the first group has begun with some lines already. -/
def gather (pending : List String) : List String → List (List String)
  | [] => if pending = [] then [] else [pending]
  | line :: rest =>
    if complete (pending ++ [line]) then (pending ++ [line]) :: gather [] rest
    else gather (pending ++ [line]) rest

/-- Nothing that the lines begin with is complete, so that a group goes on after them. -/
def Pending (lines : List String) : Prop :=
  ∀ start, start <+: lines → complete start = false

theorem pending_nil : Pending [] := by
  intro start within
  rw [List.prefix_nil.mp within]
  rfl

theorem Pending.concat {line : String} (goesOn : Pending pending)
    (incomplete : complete (pending ++ [line]) = false) : Pending (pending ++ [line]) := by
  intro start within
  obtain rfl | before := List.prefix_concat_iff.mp within
  · exact incomplete
  · exact goesOn start before

theorem divides_gather (goesOn : Pending pending) :
    Divides (gather pending lines) (pending ++ lines) := by
  induction lines generalizing pending with
  | nil =>
    unfold gather
    split
    · rename_i nothing
      rw [nothing]
      exact .nil
    · rename_i some
      refine .cons (firstGroup_iff.mpr ⟨some, fun start within full => ?_, .inr rfl⟩) .nil
      rw [goesOn start within] at full
      cases full
  | cons line rest inductionHypothesis =>
    rw [gather, List.append_cons pending line rest]
    split
    · rename_i whole
      refine .cons (firstGroup_iff.mpr ⟨by simp, fun start within full => ?_, .inl whole⟩) ?_
      · obtain same | before := List.prefix_concat_iff.mp within
        · exact same
        · rw [goesOn start before] at full
          cases full
      · exact inductionHypothesis pending_nil
    · rename_i incomplete
      exact inductionHypothesis (goesOn.concat (Bool.eq_false_iff.mpr incomplete))

theorem Divides.unique {others : List (List String)} {after : List String}
    (divides : Divides groups lines) (other : Divides others after) (same : lines = after) :
    groups = others := by
  induction divides generalizing others after with
  | nil =>
    cases other with
    | nil => rfl
    | cons first _ =>
      exact absurd (List.append_eq_nil_iff.mp same.symm).1 (firstGroup_iff.mp first).1
  | cons first _ inductionHypothesis =>
    cases other with
    | nil => exact absurd (List.append_eq_nil_iff.mp same).1 (firstGroup_iff.mp first).1
    | cons second rest =>
      obtain ⟨rfl, alike⟩ := first.unique second same
      rw [inductionHypothesis rest alike]

/-- Lines are divided in one way only. -/
theorem divides_iff : Divides groups lines ↔ groups = gather [] lines :=
  ⟨fun divides => divides.unique (divides_gather pending_nil) rfl,
    fun same => same ▸ divides_gather pending_nil⟩

/-- Within a program a line that looks like a command is a line of the program. -/
example : gather [] ["let f = fn(x) \x7b", ":quit", "", "x \x7d", "", ":quit", "f("] =
    [["let f = fn(x) \x7b", ":quit", "", "x \x7d"], [""], [":quit"], ["f("]] := by decide +kernel

/-! ### The text of a group -/

theorem joined_concat {line : String} (some : pending ≠ []) :
    joined (pending ++ [line]) = joined pending ++ "\n" ++ line := by
  unfold joined
  rw [String.intercalate_append_of_ne_nil some (List.cons_ne_nil _ _),
    String.intercalate_singleton]

/-- The text of a group begins with its first line. -/
theorem joined_cons (line : String) (others : List String) :
    ∃ more, joined (line :: others) = line ++ more := by
  unfold joined
  cases others with
  | nil => exact ⟨"", by simp⟩
  | cons second others => exact ⟨_, by rw [String.intercalate_cons_cons, String.append_assoc]⟩

/-- What a text opens is what its lines open. -/
theorem excess_joined (group : List String) :
    excess (Token.scan (joined group)) = balance group := by
  have newline : "\n" = Token.spelling [0x0a] := by decide
  induction group with
  | nil => decide +kernel
  | cons line others inductionHypothesis =>
    by_cases last : others = []
    · subst last
      simp [joined, balance]
    · unfold joined at *
      rw [String.intercalate_cons_of_ne_nil last, newline, Token.scan_separated rfl,
        excess_append, ← newline, inductionHypothesis, balance]

/-- A text wants more lines exactly if its lines are not complete. -/
theorem needsMore_joined {line : String} {others : List String}
    (single : Text.isBlank line = true → others = []) :
    needsMore (joined (line :: others)) = !complete (line :: others) := by
  cases blank : Text.isBlank line with
  | true =>
    have text : joined [line] = line := String.intercalate_singleton
    have alone : standsAlone line = true := by rw [standsAlone, blank, Bool.or_true]
    rw [needsMore, complete, single blank, text, excess_of_isBlank blank, alone]
    exact Bool.and_false _
  | false =>
    obtain ⟨more, text⟩ := joined_cons line others
    have command := CommandLine.isSome_parse?_append blank more
    rw [← text] at command
    rw [needsMore, complete, standsAlone, blank, excess_joined, ← Option.not_isSome, command,
      Bool.or_false, Bool.not_or, ← decide_not]
    exact congrArg _ (decide_eq_decide.mpr Int.not_le.symm)

/-- The text that the prompt has started when it holds these lines. -/
def textOf (pending : List String) : Option String :=
  if pending = [] then none else some (joined pending)

theorem extend_textOf (pending : List String) (line : String) :
    extend (textOf pending) line = joined (pending ++ [line]) := by
  unfold textOf
  split
  · rename_i nothing
    rw [nothing]
    exact String.intercalate_singleton.symm
  · rename_i some
    exact (joined_concat some).symm

/-! ### Taking lines -/

variable {prompt next last : Prompt} {depth : Nat} {read : String → Contents} {text : String}
  {texts : List String} {emissions : List Emission}

/-- Whether a text is the command to quit. -/
def quits (text : String) : Bool :=
  match CommandLine.parse? text with
  | some (.run .quit _) => true
  | _ => false

/-- The texts up to the command to quit. -/
def untilQuit : List String → List String
  | [] => []
  | text :: rest => if quits text then [text] else text :: untilQuit rest

/-- The texts that are answered: those that are not blank, up to the command to quit. -/
def answered (texts : List String) : List String :=
  (untilQuit texts).filter fun text => !Text.isBlank text

/-- Answers texts in order, whatever each of them comes to. -/
def answerAll (depth : Nat) (read : String → Contents) (session : Session) :
    List String → Option (Session × List Emission)
  | [] => some (session, [])
  | text :: rest => do
    let answer ← session.answer depth read text
    let (last, others) ← answerAll depth read answer.session rest
    return (last, answer.emissions ++ others)

/-- Takes whole texts until the prompt ends, which it does after the last one. -/
def submitAll (depth : Nat) (read : String → Contents) (prompt : Prompt) :
    List String → Option (Prompt × List Emission)
  | [] => some ({ prompt with ended := true }, [])
  | text :: rest =>
    if prompt.ended then some (prompt, [])
    else do
      let (next, emissions) ← prompt.submit depth read text
      let (last, others) ← submitAll depth read next rest
      return (last, emissions ++ others)

/-- What was started before does not matter to a whole text. -/
theorem submit_started (prompt : Prompt) (started : Option String) :
    { prompt with started }.submit depth read text = prompt.submit depth read text := by
  unfold submit
  split <;> rfl

/-- A whole text leaves nothing started. -/
theorem started_of_submit (submitted : prompt.submit depth read text = some (next, emissions)) :
    next.started = none := by
  unfold submit at submitted
  split at submitted
  · obtain ⟨rfl, _⟩ := Prod.mk.inj (Option.some.inj submitted)
    rfl
  · obtain ⟨answer, _, submitted⟩ := Option.bind_eq_some_iff.mp submitted
    obtain ⟨rfl, _⟩ := Prod.mk.inj (Option.some.inj submitted)
    rfl

/-- One line completes a group, whose text is whole then, or is kept with those before it. -/
theorem feed_text (goesOn : Pending pending) (line : String) :
    { prompt with started := textOf pending }.feed depth read (.text line) =
      if complete (pending ++ [line]) then prompt.submit depth read (joined (pending ++ [line]))
      else some ({ prompt with started := textOf (pending ++ [line]) }, []) := by
  have wants : needsMore (joined (pending ++ [line])) = !complete (pending ++ [line]) := by
    cases pending with
    | nil => exact needsMore_joined fun _ => rfl
    | cons first others =>
      refine needsMore_joined fun blank => ?_
      have program := goesOn [first] ⟨others, rfl⟩
      rw [complete, standsAlone, blank, Bool.or_true] at program
      cases program
  have kept : textOf (pending ++ [line]) = some (joined (pending ++ [line])) :=
    if_neg (List.append_ne_nil_of_right_ne_nil _ (List.cons_ne_nil _ _))
  simp only [feed, extend_textOf, wants]
  cases complete (pending ++ [line]) with
  | true => exact submit_started prompt _
  | false => rw [kept]; rfl

theorem feedAll_of_ended (ended : prompt.ended = true) (lines : List Line) :
    feedAll depth read prompt lines = some (prompt, []) := by
  cases lines <;> exact if_pos ended

theorem submitAll_of_ended (ended : prompt.ended = true) (texts : List String) :
    submitAll depth read prompt texts = some (prompt, []) := by
  cases texts with
  | nil => rw [submitAll, ← ended]
  | cons text rest => exact if_pos ended

/-- A prompt that holds some lines takes the texts of the groups that they and the lines to come
make. -/
theorem feedAll_eq_submitAll (goesOn : Pending pending) (idle : prompt.started = none)
    (active : prompt.ended = false) (lines : List String) :
    feedAll depth read { prompt with started := textOf pending } (lines.map .text) =
      submitAll depth read prompt ((gather pending lines).map joined) := by
  induction lines generalizing prompt pending with
  | nil =>
    rw [List.map_nil, feedAll, if_neg (by simp [active]), close, gather, textOf]
    by_cases nothing : pending = []
    · obtain ⟨session, started, history, ended⟩ := prompt
      obtain rfl : started = none := idle
      rw [if_pos nothing, if_pos nothing]
      rfl
    · rw [if_neg nothing, if_neg nothing, List.map_singleton, submitAll, if_neg (by simp [active])]
      show ({ prompt with started := some (joined pending) }.submit depth read _).bind _ = _
      rw [submit_started]
      refine congrArg _ (funext fun (next, emissions) => ?_)
      simp [submitAll]
  | cons line rest inductionHypothesis =>
    rw [List.map_cons, feedAll, if_neg (by simp [active]), feed_text goesOn, gather]
    cases whole : complete (pending ++ [line]) with
    | false =>
      rw [if_neg Bool.false_ne_true, if_neg Bool.false_ne_true,
        ← inductionHypothesis (goesOn.concat whole) idle active]
      show (feedAll depth read { prompt with started := textOf (pending ++ [line]) } _).bind _ = _
      generalize feedAll depth read _ _ = taken
      cases taken <;> rfl
    | true =>
      rw [if_pos rfl, if_pos rfl, List.map_cons, submitAll, if_neg (by simp [active])]
      cases submitted : prompt.submit depth read (joined (pending ++ [line])) with
      | none => rfl
      | some taken =>
        obtain ⟨next, emissions⟩ := taken
        have idleNext := started_of_submit submitted
        have same : feedAll depth read next (rest.map .text) =
            submitAll depth read next ((gather [] rest).map joined) := by
          cases ended : next.ended with
          | true => rw [feedAll_of_ended ended, submitAll_of_ended ended]
          | false =>
            have tail := inductionHypothesis pending_nil idleNext ended
            rwa [textOf, if_pos rfl, ← idleNext] at tail
        show (feedAll depth read next _).bind _ = (submitAll depth read next _).bind _
        rw [same]

/-! ### Answering -/

/-- An answer lets the prompt go on unless the text was the command to quit. -/
theorem continues_of_answer {session : Session} {answer : Answer}
    (answered : session.answer depth read text = some answer) :
    answer.continues = !quits text := by
  unfold Session.answer at answered
  unfold quits
  split at answered
  · rename_i command argument parsed
    rw [parsed]
    cases command with
    | load =>
      obtain ⟨loaded, _, answered⟩ := Option.bind_eq_some_iff.mp answered
      obtain rfl := Option.some.inj answered
      rfl
    | ast =>
      rw [Session.command] at answered
      split at answered <;> obtain rfl := Option.some.inj answered <;> rfl
    | help | reset | quit =>
      obtain rfl := Option.some.inj answered
      rfl
  · rename_i parsed
    obtain rfl := Option.some.inj answered
    rw [parsed]
    rfl
  · rename_i parsed
    obtain rfl := Option.some.inj answered
    rw [parsed]
    rfl
  · rename_i parsed
    rw [parsed]
    obtain ⟨⟨reply, after⟩, _, answered⟩ := Option.bind_eq_some_iff.mp answered
    cases reply <;> obtain rfl := Option.some.inj answered <;> rfl

/-- Nothing becomes of a blank text. -/
theorem submit_of_blank (blank : Text.isBlank text = true) :
    prompt.submit depth read text = some ({ prompt with started := none }, []) :=
  if_pos blank

/-- Any other text is answered in the session and put into the history, and the prompt ends if it
is the command to quit. -/
theorem submit_of_solid (solid : Text.isBlank text = false) :
    prompt.submit depth read text = (prompt.session.answer depth read text).map fun answer =>
      (⟨answer.session, none, text :: prompt.history, quits text⟩, answer.emissions) := by
  unfold submit
  rw [solid, if_neg Bool.false_ne_true]
  cases found : prompt.session.answer depth read text with
  | none => rfl
  | some answer =>
    rw [Option.bind_eq_bind, Option.bind_some, continues_of_answer found, Bool.not_not]
    rfl

/-- No blank text is answered. -/
theorem answered_cons_of_blank (blank : Text.isBlank text = true) :
    answered (text :: texts) = answered texts := by
  have goesOn : quits text = false := by simp [quits, CommandLine.parse?_of_isBlank blank]
  simp [answered, untilQuit, goesOn, blank]

theorem answered_cons_of_solid (solid : Text.isBlank text = false) :
    answered (text :: texts) = text :: if quits text then [] else answered texts := by
  rw [answered, untilQuit]
  cases quits text <;> simp [answered, solid]

/-- A prompt to which texts are handed answers them in the session, up to the command to quit. -/
theorem submitAll_eq (idle : prompt.started = none) (active : prompt.ended = false)
    (texts : List String) :
    submitAll depth read prompt texts =
      (answerAll depth read prompt.session (answered texts)).map fun (last, emissions) =>
        (⟨last, none, (answered texts).reverse ++ prompt.history, true⟩, emissions) := by
  induction texts generalizing prompt with
  | nil =>
    obtain ⟨session, started, history, ended⟩ := prompt
    obtain rfl : started = none := idle
    rfl
  | cons text rest inductionHypothesis =>
    rw [submitAll, if_neg (by simp [active])]
    cases blank : Text.isBlank text with
    | true =>
      have others : submitAll depth read { prompt with started := none } rest = _ :=
        inductionHypothesis rfl active
      rw [submit_of_blank blank, answered_cons_of_blank blank]
      show (submitAll depth read { prompt with started := none } rest).bind _ = _
      rw [others]
      cases answerAll depth read prompt.session (answered rest) <;> rfl
    | false =>
      rw [submit_of_solid blank, answered_cons_of_solid blank, answerAll]
      cases prompt.session.answer depth read text with
      | none => rfl
      | some answer =>
        simp only [Option.map_some, Option.bind_eq_bind, Option.bind_some]
        cases quit : quits text with
        | true =>
          rw [submitAll_of_ended rfl]
          rfl
        | false =>
          have others : submitAll depth read ⟨answer.session, none, text :: prompt.history, false⟩
              rest = _ := inductionHypothesis rfl rfl
          rw [others, if_neg Bool.false_ne_true, List.reverse_cons, List.append_assoc,
            List.singleton_append]
          cases answerAll depth read answer.session (answered rest) <;> rfl

/-- The prompt divides lines into their groups, and does with them what it does when the texts of
the groups are handed to it, one after the other. Those that are not blank it answers in the session
and keeps, up to the command to quit. -/
theorem feedAll_loses_nothing (depth : Nat) (read : String → Contents) (session : Session)
    (lines : List String) :
    ∃ groups, (∀ others, Divides others lines ↔ others = groups) ∧ groups.flatten = lines ∧
      feedAll depth read (ofSession session) (lines.map .text) =
        submitAll depth read (ofSession session) (groups.map joined) ∧
      feedAll depth read (ofSession session) (lines.map .text) =
        (answerAll depth read session (answered (groups.map joined))).map
          fun (last, emissions) =>
            (⟨last, none, (answered (groups.map joined)).reverse, true⟩, emissions) := by
  have divides : Divides (gather [] lines) lines := divides_gather pending_nil
  have idle : (ofSession session).started = none := rfl
  have same : feedAll depth read (ofSession session) (lines.map .text) =
      submitAll depth read (ofSession session) ((gather [] lines).map joined) :=
    feedAll_eq_submitAll pending_nil idle rfl lines
  refine ⟨gather [] lines, fun others => divides_iff, divides.flatten, same, ?_⟩
  rw [same, submitAll_eq idle rfl]
  simp only [ofSession, List.append_nil]

end Monkey.Prompt
