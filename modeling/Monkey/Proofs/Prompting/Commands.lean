/-
This file says which lines are commands and what of. The first character of such a
line is a colon, but for white space, and the rest of it is a name and an argument
with white space around them. There is only one way to cut a line into these parts,
so what the line asks for is a matter of its name and its argument alone. No command
line is a program, since there is no colon in a program.
-/

import Monkey.Proofs.Prompting.Lines
import Monkey.Proofs.Prompting.Suggesting
import Monkey.Proofs.Sessions.Groups

namespace Monkey

/-! ### White space at the ends -/

namespace Text

variable {front solid back : List Char}

/-- No white space stands at either end. -/
structure Trimmed (characters : List Char) : Prop where
  starts : ∀ character ∈ characters.head?, isWhite character = false
  ends : ∀ character ∈ characters.getLast?, isWhite character = false

theorem trimmed_of_solid (all : ∀ character ∈ solid, isWhite character = false) : Trimmed solid :=
  ⟨fun character first => all character (List.mem_of_head? first),
    fun character last => all character (List.mem_of_getLast? last)⟩

theorem trimStart_of_starts (starts : ∀ character ∈ solid.head?, isWhite character = false) :
    trimStart solid = solid :=
  (Token.span_append (List.forall_mem_nil _) starts).2

theorem trimEnd_append (ends : ∀ character ∈ solid.getLast?, isWhite character = false)
    (white : ∀ character ∈ back, isWhite character) : trimEnd (solid ++ back) = solid := by
  have backward : ∀ character ∈ back.reverse, isWhite character :=
    fun character member => white character (List.mem_reverse.mp member)
  have stops : ∀ character ∈ solid.reverse.head?, isWhite character = false := by
    rwa [List.head?_reverse]
  unfold trimEnd
  rw [List.reverse_append, (Token.span_append backward stops).2, List.reverse_reverse]

/-- White space at the ends is trimmed, and nothing else. -/
theorem trim_append (white : ∀ character ∈ front, isWhite character) (trimmed : Trimmed solid)
    (white' : ∀ character ∈ back, isWhite character) : trim (front ++ (solid ++ back)) = solid := by
  have dropped : trimStart (front ++ (solid ++ back)) = trimStart (solid ++ back) :=
    List.dropWhile_append_of_pos white
  rw [trim, dropped]
  by_cases nothing : solid = []
  · subst nothing
    have all : trimStart ([] ++ back) = [] := List.dropWhile_eq_nil_iff.mpr white'
    rw [all]
    rfl
  · have first : (solid ++ back).head? = solid.head? := List.head?_append_of_ne_nil solid nothing
    rw [trimStart_of_starts (first ▸ trimmed.starts), trimEnd_append trimmed.ends white']

/-- A text starts as its first part does, unless that is empty and something follows. -/
theorem starts_append {holds : Char → Prop} (starts : ∀ character ∈ front.head?, holds character)
    (bare : front = [] → back = []) : ∀ character ∈ (front ++ back).head?, holds character := by
  by_cases nothing : front = []
  · rw [bare nothing, nothing]
    nofun
  · rwa [List.head?_append_of_ne_nil _ nothing]

/-- Every text starts with a run of a class, which may be empty. -/
theorem exists_span (holds : Char → Bool) (text : List Char) :
    ∃ run rest, text = run ++ rest ∧ (∀ character ∈ run, holds character) ∧
      ∀ character ∈ rest.head?, holds character = false := by
  refine ⟨text.takeWhile holds, text.dropWhile holds, List.takeWhile_append_dropWhile.symm,
    fun _ member => List.mem_takeWhile_imp member, fun character first => ?_⟩
  have stopped := List.head?_dropWhile_not holds text
  rw [first] at stopped
  exact stopped

/-- Every text is white space around what it is trimmed to, which is nothing only if the white space
in front is all there is. -/
theorem exists_trimmed (text : List Char) :
    ∃ front solid back, text = front ++ (solid ++ back) ∧
      (∀ character ∈ front, isWhite character) ∧ Trimmed solid ∧
      (∀ character ∈ back, isWhite character) ∧ (solid = [] → back = []) := by
  obtain ⟨front, rest, rfl, white, stops⟩ := exists_span isWhite text
  obtain ⟨solid, split, white', ends⟩ := Suggestions.exists_lastRun isWhite rest
  generalize Suggestions.lastRun isWhite rest = back at split white'
  subst split
  refine ⟨front, solid, back, rfl, white, ⟨fun character first => ?_, ends⟩, white', ?_⟩
  · refine stops character ?_
    rw [List.head?_append, first]
    rfl
  · rintro rfl
    cases back with
    | nil => rfl
    | cons character rest =>
      have solid : isWhite character = false := stops character rfl
      rw [white' character List.mem_cons_self] at solid
      cases solid

/-- A run of a class that another part follows can be cut off in one way only. -/
theorem span_unique (holds : Char → Bool) {run rest run' rest' : List Char}
    (all : ∀ character ∈ run, holds character)
    (stops : ∀ character ∈ rest.head?, holds character = false)
    (all' : ∀ character ∈ run', holds character)
    (stops' : ∀ character ∈ rest'.head?, holds character = false)
    (same : run ++ rest = run' ++ rest') : run = run' ∧ rest = rest' := by
  obtain ⟨taken, left⟩ := Token.span_append all stops
  obtain ⟨taken', left'⟩ := Token.span_append all' stops'
  rw [same] at taken left
  exact ⟨taken.symm.trans taken', left.symm.trans left'⟩

end Text

/-! ### The parts of a command line -/

namespace CommandLine

open Text

/-- What a command line is made of: white space, the colon, white space, the name of a command,
white space, an argument and white space. -/
structure Parts where
  lead : List Char
  gap : List Char
  name : List Char
  spacing : List Char
  argument : List Char
  trail : List Char

namespace Parts

/-- What stands after the name. -/
def tail (parts : Parts) : List Char :=
  parts.spacing ++ (parts.argument ++ parts.trail)

/-- What stands after the colon. -/
def afterColon (parts : Parts) : List Char :=
  parts.gap ++ (parts.name ++ parts.tail)

/-- The line. -/
def characters (parts : Parts) : List Char :=
  parts.lead ++ ':' :: parts.afterColon

/-- The parts are what they are called. Around a part that is empty, all white space counts as what
stands before it. -/
structure Proper (parts : Parts) : Prop where
  lead : ∀ character ∈ parts.lead, isWhite character
  gap : ∀ character ∈ parts.gap, isWhite character
  name : ∀ character ∈ parts.name, isWhite character = false
  /-- A name is missing only if nothing but white space follows the colon. -/
  nameless : parts.name = [] → parts.tail = []
  spacing : ∀ character ∈ parts.spacing, isWhite character
  argument : Trimmed parts.argument
  trail : ∀ character ∈ parts.trail, isWhite character
  apart : parts.argument ≠ [] → parts.spacing ≠ []
  bare : parts.argument = [] → parts.trail = []

variable {parts other : Parts}

/-- White space stands after the name, or nothing. -/
theorem Proper.starts_tail (proper : parts.Proper) :
    ∀ character ∈ parts.tail.head?, isWhite character := by
  refine starts_append (fun character first => proper.spacing character (List.mem_of_head? first)) ?_
  intro nothing
  have none : parts.argument = [] := by_contra fun some => proper.apart some nothing
  rw [none, proper.bare none, List.append_nil]

/-- What stands after the white space behind the colon starts with the name. -/
theorem Proper.starts_name (proper : parts.Proper) :
    ∀ character ∈ (parts.name ++ parts.tail).head?, isWhite character = false :=
  starts_append (trimmed_of_solid proper.name).starts proper.nameless

/-- What stands after the white space behind the name starts with the argument. -/
theorem Proper.starts_argument (proper : parts.Proper) :
    ∀ character ∈ (parts.argument ++ parts.trail).head?, isWhite character = false :=
  starts_append proper.argument.starts proper.bare

/-- An argument that ends where white space begins can be cut off in one way only. -/
theorem argument_unique {argument trail argument' trail' : List Char} (trimmed : Trimmed argument)
    (white : ∀ character ∈ trail, isWhite character) (trimmed' : Trimmed argument')
    (white' : ∀ character ∈ trail', isWhite character)
    (same : argument ++ trail = argument' ++ trail') : argument = argument' ∧ trail = trail' := by
  have ends : argument = argument' := by
    rw [← trimEnd_append trimmed.ends white, same, trimEnd_append trimmed'.ends white']
  subst ends
  exact ⟨rfl, List.append_cancel_left same⟩

theorem starts_colon {rest : List Char} :
    ∀ character ∈ (':' :: rest).head?, isWhite character = false := by
  rintro _ ⟨⟩
  decide

/-- There is only one way to cut a line into parts. -/
theorem Proper.unique (proper : parts.Proper) (proper' : other.Proper)
    (same : parts.characters = other.characters) : parts = other := by
  obtain ⟨lead, rest⟩ := span_unique isWhite proper.lead starts_colon proper'.lead starts_colon same
  obtain ⟨gap, rest⟩ := span_unique isWhite proper.gap proper.starts_name proper'.gap
    proper'.starts_name (List.cons.inj rest).2
  obtain ⟨name, rest⟩ := span_unique (fun character => !isWhite character)
    (by simpa using proper.name) (by simpa using proper.starts_tail)
    (by simpa using proper'.name) (by simpa using proper'.starts_tail) rest
  obtain ⟨spacing, rest⟩ := span_unique isWhite proper.spacing proper.starts_argument
    proper'.spacing proper'.starts_argument rest
  obtain ⟨argument, trail⟩ := argument_unique proper.argument proper.trail proper'.argument
    proper'.trail rest
  cases parts
  cases other
  simp_all

/-! ### The parts are what is found -/

/-- What stands behind the colon between the white space at its ends is the name and, if there is an
argument, all that stands before the end of it. -/
theorem Proper.exists_body (proper : parts.Proper) :
    ∃ body back, parts.tail = body ++ back ∧ Trimmed (parts.name ++ body) ∧
      (∀ character ∈ back, isWhite character) ∧
      (∀ character ∈ body.head?, isWhite character) ∧ trim body = parts.argument := by
  by_cases nothing : parts.argument = []
  · refine ⟨[], parts.spacing, ?_, ?_, proper.spacing, nofun, nothing.symm⟩
    · simp [tail, nothing, proper.bare nothing]
    · rw [List.append_nil]
      exact trimmed_of_solid proper.name
  · have separated : parts.spacing ≠ [] := proper.apart nothing
    have named : parts.name ≠ [] := by
      intro nameless
      have empty := proper.nameless nameless
      simp [tail, nothing] at empty
    refine ⟨parts.spacing ++ parts.argument, parts.trail, ?_, ⟨?_, ?_⟩, proper.trail, ?_, ?_⟩
    · exact (List.append_assoc ..).symm
    · exact starts_append (trimmed_of_solid proper.name).starts fun none => absurd none named
    · rw [← List.append_assoc, List.getLast?_append_of_ne_nil _ nothing]
      exact proper.argument.ends
    · exact starts_append (fun character first => proper.spacing character (List.mem_of_head? first))
        fun none => absurd none separated
    · have trimmed := trim_append proper.spacing proper.argument (List.forall_mem_nil _)
      rwa [List.append_nil] at trimmed

/-- A line asks for what its name and its argument ask for. -/
theorem Proper.parse?_eq {line : String} (proper : parts.Proper)
    (whole : parts.characters = line.toList) :
    parse? line = some (ofParts (String.ofList parts.name) (String.ofList parts.argument)) := by
  obtain ⟨body, back, tail, trimmed, white, starts, argument⟩ := proper.exists_body
  have colon : trimStart line.toList = ':' :: parts.afterColon := by
    rw [← whole]
    exact (Token.span_append proper.lead starts_colon).2
  have inside : trim parts.afterColon = parts.name ++ body := by
    rw [afterColon, tail, ← List.append_assoc parts.name]
    exact trim_append proper.gap trimmed white
  have solid : ∀ character ∈ parts.name, !isWhite character := by simpa using proper.name
  have stops : ∀ character ∈ body.head?, (!isWhite character) = false := by simpa using starts
  obtain ⟨taken, left⟩ := Token.span_append solid stops
  simp only [parse?, colon, inside, taken, left, argument]

/-! ### Every command line has parts -/

/-- What stands behind the name, if the white space at the end is left out, is white space and an
argument. -/
theorem exists_argument {name body : List Char} (trimmed : Trimmed (name ++ body))
    (starts : ∀ character ∈ body.head?, isWhite character) (some : body ≠ []) :
    ∃ spacing argument, body = spacing ++ argument ∧ spacing ≠ [] ∧ argument ≠ [] ∧
      (∀ character ∈ spacing, isWhite character) ∧ Trimmed argument := by
  have ends := trimmed.ends
  rw [List.getLast?_append_of_ne_nil _ some] at ends
  obtain ⟨spacing, argument, rfl, white, stops⟩ := exists_span isWhite body
  have argued : argument ≠ [] := by
    rintro rfl
    rw [List.append_nil] at some ends
    have last := white _ (List.getLast_mem some)
    rw [ends _ (List.getLast?_eq_some_getLast some)] at last
    cases last
  refine ⟨spacing, argument, rfl, ?_, argued, white, stops, ?_⟩
  · rintro rfl
    have first := starts _ (List.head?_eq_some_head argued)
    rw [stops _ (List.head?_eq_some_head argued)] at first
    cases first
  · rwa [List.getLast?_append_of_ne_nil _ argued] at ends

/-- Whatever stands after a colon, the line has parts. -/
theorem exists_proper {lead : List Char} (white : ∀ character ∈ lead, isWhite character)
    (text : List Char) :
    ∃ parts : Parts, parts.Proper ∧ parts.characters = lead ++ ':' :: text := by
  obtain ⟨gap, solid, back, rfl, inGap, trimmed, inBack, bare⟩ := exists_trimmed text
  obtain ⟨name, body, rfl, inName, starts⟩ :=
    exists_span (fun character => !isWhite character) solid
  have solid : ∀ character ∈ name, isWhite character = false := by simpa using inName
  have starts : ∀ character ∈ body.head?, isWhite character := by simpa using starts
  by_cases nothing : body = []
  · rw [nothing, List.append_nil] at bare
    refine ⟨⟨lead, gap, name, back, [], []⟩, ?_, by simp [characters, afterColon, tail, nothing]⟩
    exact { lead := white, gap := inGap, name := solid, spacing := inBack
            nameless := fun nameless => by simpa [tail] using bare nameless
            argument := trimmed_of_solid (List.forall_mem_nil _)
            trail := List.forall_mem_nil _
            apart := fun some => absurd rfl some
            bare := fun _ => rfl }
  · obtain ⟨spacing, argument, rfl, separated, argued, inSpacing, around⟩ :=
      exists_argument trimmed starts nothing
    refine ⟨⟨lead, gap, name, spacing, argument, back⟩, ?_, by simp [characters, afterColon, tail]⟩
    -- A text that starts with white space would not have been trimmed.
    have named : name ≠ [] := by
      rintro rfl
      have first := List.head?_eq_some_head nothing
      have other := trimmed.starts _ first
      rw [starts _ first] at other
      cases other
    exact { lead := white, gap := inGap, name := solid, spacing := inSpacing
            nameless := fun nameless => absurd nameless named
            argument := around
            trail := inBack
            apart := fun _ => separated
            bare := fun nothing => absurd nothing argued }

end Parts

end CommandLine

/-! ### Names of commands -/

namespace Command

variable {command other : Command} {name : String}

/-- A command goes by its short and by its long name. -/
def GoesBy (command : Command) (name : String) : Prop :=
  name = command.shortName ∨ name = command.longName

instance : Decidable (command.GoesBy name) :=
  inferInstanceAs (Decidable (_ ∨ _))

theorem mem_all : command ∈ all := by
  cases command <;> decide

/-- No two commands go by one name. -/
theorem GoesBy.unique (goes : command.GoesBy name) (goes' : other.GoesBy name) :
    command = other := by
  rcases goes with rfl | rfl <;> revert goes' <;> cases command <;> cases other <;> decide

theorem named?_eq_none_iff : named? name = none ↔ ∀ command : Command, ¬ command.GoesBy name := by
  rw [named?, List.find?_eq_none]
  exact ⟨fun strange command goes => strange command mem_all (by simpa [GoesBy] using goes),
    fun strange command _ => by simpa [GoesBy] using strange command⟩

theorem named?_eq_some_iff : named? name = some command ↔ command.GoesBy name := by
  have goes : ∀ found, named? name = some found → found.GoesBy name :=
    fun found named => by simpa [GoesBy] using List.find?_some named
  refine ⟨goes command, fun goes' => ?_⟩
  cases named : named? name with
  | none => exact absurd goes' (named?_eq_none_iff.mp named command)
  | some found => rw [(goes found named).unique goes']

end Command

/-! ### What a command line asks for -/

namespace CommandLine

open Text

variable {name argument : String}

theorem ofParts_of_named {command : Command} (named : Command.named? name = some command) :
    ofParts name argument = if command.takesArgument ∧ argument = "" then missingArgument command
      else run command argument := by
  simp [ofParts, named]

theorem ofParts_eq_unknown_iff {strange : String} :
    ofParts name argument = unknown strange ↔
      strange = name ∧ ∀ command : Command, ¬ command.GoesBy name := by
  rw [← Command.named?_eq_none_iff]
  cases named : Command.named? name with
  | none => simp [ofParts, named, eq_comm]
  | some command =>
    rw [ofParts_of_named named]
    split <;> simp

theorem ofParts_eq_missingArgument_iff {command : Command} :
    ofParts name argument = missingArgument command ↔
      command.GoesBy name ∧ command.takesArgument ∧ argument = "" := by
  rw [← Command.named?_eq_some_iff]
  cases named : Command.named? name with
  | none => simp [ofParts, named]
  | some found =>
    rw [ofParts_of_named named, Option.some_inj]
    split
    · rename_i lacks
      rw [missingArgument.injEq]
      exact ⟨fun same => ⟨same, same ▸ lacks⟩, And.left⟩
    · rename_i enough
      exact ⟨nofun, fun ⟨same, lacks⟩ => absurd (same ▸ lacks) enough⟩

theorem ofParts_eq_run_iff {command : Command} {given : String} :
    ofParts name argument = run command given ↔
      command.GoesBy name ∧ given = argument ∧ ¬ (command.takesArgument ∧ argument = "") := by
  rw [← Command.named?_eq_some_iff]
  cases named : Command.named? name with
  | none => simp [ofParts, named]
  | some found =>
    rw [ofParts_of_named named, Option.some_inj]
    split
    · rename_i lacks
      exact ⟨nofun, fun ⟨same, _, enough⟩ => absurd (same ▸ lacks) enough⟩
    · rename_i enough
      rw [run.injEq]
      exact ⟨fun ⟨same, given⟩ => ⟨same, given.symm, same ▸ enough⟩,
        fun ⟨same, given, _⟩ => ⟨same, given.symm⟩⟩

/-- What a line with these parts asks for. -/
structure Recognised (line : String) (parts : Parts) (found : CommandLine) : Prop where
  proper : parts.Proper
  whole : parts.characters = line.toList
  /-- The line has no other parts. -/
  only : ∀ other : Parts, other.Proper → other.characters = line.toList → other = parts
  unknown : ∀ strange, found = unknown strange ↔ strange = String.ofList parts.name ∧
    ∀ command : Command, ¬ command.GoesBy (String.ofList parts.name)
  missingArgument : ∀ command, found = missingArgument command ↔
    command.GoesBy (String.ofList parts.name) ∧ command.takesArgument ∧ parts.argument = []
  run : ∀ command argument, found = run command argument ↔
    command.GoesBy (String.ofList parts.name) ∧ argument = String.ofList parts.argument ∧
      ¬ (command.takesArgument ∧ parts.argument = [])

variable {line : String}

/-- A line is no command line exactly if something other than a colon, or nothing, comes first in it
but for white space. -/
theorem parse?_eq_none_iff :
    parse? line = none ↔ line.toList.find? (fun character => !isWhite character) ≠ some ':' := by
  rw [List.find?_not_eq_head?_dropWhile, ← Option.not_isSome_iff_eq_none, isSome_parse?_iff]
  rfl

/-- Whatever starts with a colon has parts, and they say what it asks for. -/
theorem exists_recognised {found : CommandLine} (command : parse? line = some found) :
    ∃ parts, Recognised line parts found := by
  have colon : (trimStart line.toList).head? = some ':' :=
    isSome_parse?_iff.mp (Option.isSome_iff_exists.mpr ⟨found, command⟩)
  obtain ⟨rest, starts⟩ := List.head?_eq_some_iff.mp colon
  obtain ⟨parts, proper, whole⟩ := Parts.exists_proper
    (fun _ member => List.mem_takeWhile_imp (p := isWhite) (l := line.toList) member) rest
  rw [← starts] at whole
  have whole : parts.characters = line.toList := whole.trans List.takeWhile_append_dropWhile
  have asks := Option.some.inj (command.symm.trans (proper.parse?_eq whole))
  have nothing : String.ofList parts.argument = "" ↔ parts.argument = [] := by simp
  refine ⟨parts, proper, whole, fun other proper' whole' => ?_, fun strange => ?_,
    fun missing => ?_, fun known given => ?_⟩
  · exact proper'.unique proper (whole'.trans whole.symm)
  · rw [asks, ofParts_eq_unknown_iff]
  · rw [asks, ofParts_eq_missingArgument_iff, nothing]
  · rw [asks, ofParts_eq_run_iff, nothing]

/-- A line is a command line exactly if a colon comes first in it but for white space. It can be cut
into a name and an argument in one way only, and these say what it asks for. A command line
is never a program. -/
theorem command_lines_are_recognised (line : String) :
    (parse? line = none ↔
      line.toList.find? (fun character => !isWhite character) ≠ some ':') ∧
    ∀ found, parse? line = some found →
      (∃ parts, Recognised line parts found) ∧ (Program.parse line).diagnostics ≠ [] := by
  refine ⟨parse?_eq_none_iff, fun found command => ⟨exists_recognised command, fun clean => ?_⟩⟩
  rw [parse?_of_clean clean] at command
  cases command

/-- White space may be any of the standard's, and there may be some in an argument. -/
theorem command_lines_are_recognised_spaced :
    parse? " :\u00a0ast\u2003 1 +\t2 " = some (run .ast "1 +\t2") ∧
      (∃ parts, Recognised " :\u00a0ast\u2003 1 +\t2 " parts (run .ast "1 +\t2")) ∧
        (Program.parse " :\u00a0ast\u2003 1 +\t2 ").diagnostics ≠ [] := by
  have command : parse? " :\u00a0ast\u2003 1 +\t2 " = some (run .ast "1 +\t2") := by decide
  exact ⟨command, (command_lines_are_recognised _).2 _ command⟩

end CommandLine

end Monkey
