/-
This file is about what the prompt suggests for the word before the cursor. That
word is the longest one that ends there, and what is suggested are the keywords
and then the bound names that begin with it, each once: a bound name is never a
keyword. All of them are words, so a word that is put in place of the typed one
starts where that did, and is suggested for itself.
-/

import Monkey.Proofs.Sessions.Names
import Monkey.Prompt.Suggestions

namespace Monkey

namespace Suggestions

open Prompt (byteCount)

/-! ### Text before the cursor -/

theorem byteCount_append (first second : List Char) :
    byteCount (first ++ second) = byteCount first + byteCount second := by
  induction first with
  | nil => exact (Nat.zero_add _).symm
  | cons character rest inductionHypothesis =>
    rw [List.cons_append, byteCount, byteCount, inductionHypothesis, Nat.add_assoc]

/-- The characters before a cursor that stands between two characters. -/
theorem charactersWithin_append (typed after : List Char) :
    charactersWithin (byteCount typed) (typed ++ after) = typed := by
  induction typed with
  | nil =>
    cases after with
    | nil => rfl
    | cons character rest => exact if_neg (Nat.not_le.mpr character.utf8Size_pos)
  | cons character rest inductionHypothesis =>
    rw [List.cons_append, charactersWithin, byteCount, if_pos (Nat.le_add_right _ _),
      Nat.add_sub_cancel_left, inductionHypothesis]

theorem before_eq {line : String} {typed after : List Char} (split : line.toList = typed ++ after) :
    before line (byteCount typed) = typed := by
  rw [before, split, charactersWithin_append]

/-! ### The last word -/

section

variable {accept : Char → Bool} {front word : List Char}

/-- Accepted characters after one that is not are the last run. -/
theorem lastRun_append (all : ∀ character ∈ word, accept character)
    (stops : ∀ character ∈ front.getLast?, accept character = false) :
    lastRun accept (front ++ word) = word := by
  have ended : front.reverse.takeWhile accept = [] := by
    rw [← List.head?_reverse] at stops
    cases backward : front.reverse with
    | nil => rfl
    | cons character rest =>
      rw [backward] at stops
      exact List.takeWhile_cons_of_neg (Bool.eq_false_iff.mp (stops character rfl))
  unfold lastRun
  rw [List.reverse_append, List.takeWhile_append_of_pos fun character member =>
    all character (List.mem_reverse.mp member), ended, List.append_nil, List.reverse_reverse]

/-- A text ends in its last run, and the character before that is not accepted. -/
theorem exists_lastRun (accept : Char → Bool) (text : List Char) :
    ∃ front, text = front ++ lastRun accept text ∧
      (∀ character ∈ lastRun accept text, accept character) ∧
      ∀ character ∈ front.getLast?, accept character = false := by
  refine ⟨(text.reverse.dropWhile accept).reverse, ?_, fun character member => ?_, ?_⟩
  · rw [lastRun, ← List.reverse_append, List.takeWhile_append_dropWhile, List.reverse_reverse]
  · exact List.mem_takeWhile_imp (List.mem_reverse.mp member)
  · intro character last
    rw [List.getLast?_reverse] at last
    have stopped := List.head?_dropWhile_not accept text.reverse
    rw [last] at stopped
    exact stopped

end

/-! ### Candidates -/

variable {session : Session} {stem candidate : String}

/-- The words that are not names. -/
abbrev keywords : List String :=
  Token.keywords.map Prod.fst

theorem keywords_are_words : ∀ keyword ∈ keywords,
    keyword ≠ "" ∧ ∀ character ∈ keyword.toList, isWordCharacter character := by
  have each : keywords.all (fun keyword =>
      keyword != "" && keyword.toList.all isWordCharacter) := by decide
  intro keyword member
  have checked := List.all_eq_true.mp each keyword member
  rw [Bool.and_eq_true, bne_iff_ne, List.all_eq_true] at checked
  exact checked

theorem names_are_words {name : String} (named : IsName name) :
    name ≠ "" ∧ ∀ character ∈ name.toList, isWordCharacter character := by
  refine ⟨named.1, fun character member => ?_⟩
  unfold isWordCharacter
  rw [Bool.or_eq_true, Bool.or_eq_true, beq_iff_eq, beq_iff_eq, or_assoc]
  exact named.2.1 character member

theorem candidatesFor_of_ne (session : Session) (typed : stem ≠ "") :
    candidatesFor session stem =
      keywords.filter (Text.hasStem stem) ++ session.namesWithStem stem := by
  have some : stem.isEmpty = false := by simpa [String.isEmpty_iff] using typed
  rw [candidatesFor, some, if_neg Bool.false_ne_true]

theorem mem_namesWithStem {name : String} : name ∈ session.namesWithStem stem ↔
    stem.toList <+: name.toList ∧ (session.get? name).isSome :=
  Store.mem_namesWithStem

/-- The candidates are the keywords and the bound names that begin with what is typed. -/
theorem mem_candidatesFor : candidate ∈ candidatesFor session stem ↔
    stem ≠ "" ∧ stem.toList <+: candidate.toList ∧
      (candidate ∈ keywords ∨ (session.get? candidate).isSome) := by
  by_cases typed : stem = ""
  · subst typed
    simp [candidatesFor]
  · rw [candidatesFor_of_ne session typed, List.mem_append, List.mem_filter, Text.hasStem,
      List.isPrefixOf_iff_prefix, mem_namesWithStem, and_comm, ← and_or_left, and_iff_right typed]

/-- No word is suggested twice. -/
theorem nodup_candidatesFor (binds : session.BindsNames) (stem : String) :
    (candidatesFor session stem).Nodup := by
  by_cases typed : stem = ""
  · subst typed
    exact List.nodup_nil
  · have table : keywords.Nodup := by decide
    have names : (session.namesWithStem stem).Nodup :=
      (session.store.namesWithStem_increasing _ _).imp fun less => String.ne_of_lt less
    rw [candidatesFor_of_ne session typed]
    refine List.nodup_append.mpr ⟨table.filter _, names, ?_⟩
    rintro keyword listed _ bound rfl
    obtain ⟨value, found⟩ := Option.isSome_iff_exists.mp (mem_namesWithStem.mp bound).2
    exact (Session.isName_of_get? binds found).2.2 (List.mem_filter.mp listed).1

/-- What is suggested is a word, and is suggested for itself. -/
theorem suggested_again (binds : session.BindsNames)
    (suggested : candidate ∈ candidatesFor session stem) :
    (∀ character ∈ candidate.toList, isWordCharacter character) ∧
      candidate ∈ candidatesFor session candidate := by
  obtain ⟨_, _, known⟩ := mem_candidatesFor.mp suggested
  have word : candidate ≠ "" ∧ ∀ character ∈ candidate.toList, isWordCharacter character := by
    obtain keyword | bound := known
    · exact keywords_are_words candidate keyword
    · obtain ⟨value, found⟩ := Option.isSome_iff_exists.mp bound
      exact names_are_words (Session.isName_of_get? binds found)
  exact ⟨word.2, mem_candidatesFor.mpr ⟨word.1, List.prefix_rfl, known⟩⟩

/-! ### Suggestions -/

/-- On a line that is no command line, the word before the cursor is completed. -/
theorem suggest_eq {line : String} {typed after : List Char} (split : line.toList = typed ++ after)
    (program : typed.head? ≠ some ':') :
    suggest session line (byteCount typed) = forWord session line (byteCount typed) := by
  unfold suggest
  rw [before_eq split]
  cases typed with
  | nil =>
    have nothing : word line 0 = [] := congrArg (lastRun isWordCharacter) (before_eq split)
    rw [byteCount, forWord, wordStart, nothing]
    rfl
  | cons first rest =>
    split
    · contradiction
    · rename_i colon
      cases colon
      exact absurd rfl program
    · rfl

/-- The word starts where the run of letters before the cursor does. -/
theorem forWord_eq {line : String} {front word after : List Char}
    (split : line.toList = front ++ word ++ after)
    (all : ∀ character ∈ word, isWordCharacter character)
    (stops : ∀ character ∈ front.getLast?, isWordCharacter character = false) :
    forWord session line (byteCount (front ++ word)) =
      ⟨byteCount front, candidatesFor session (String.ofList word)⟩ := by
  have typed : Suggestions.word line (byteCount (front ++ word)) = word := by
    rw [Suggestions.word, before_eq split, lastRun_append all stops]
  rw [forWord, wordStart, typed, byteCount_append, Nat.add_sub_cancel]

/-- What is suggested for a word that stands after some text and before the rest of the line. -/
structure Offers (session : Session) (front word after : List Char) (found : Suggestions) :
    Prop where
  start : found.start = byteCount front
  nothing : word = [] → found.candidates = []
  /-- The keywords in the order of their table, and then the names in increasing order. -/
  words : word ≠ [] → ∃ names, found.candidates =
      keywords.filter (fun keyword => word.isPrefixOf keyword.toList) ++ names ∧
    names.Pairwise (· < ·) ∧
      ∀ name, name ∈ names ↔ word <+: name.toList ∧ (session.get? name).isSome
  once : found.candidates.Nodup
  /-- A candidate in place of the word has the same start and is suggested again. -/
  again : ∀ candidate ∈ found.candidates,
    let next := suggest session (String.ofList (front ++ candidate.toList ++ after))
      (byteCount (front ++ candidate.toList))
    next.start = found.start ∧ candidate ∈ next.candidates

/-- Whatever was run in a session, to its end or not, and wherever the cursor stands in a line that
does not begin with a colon: the text before the cursor ends in a word, and if that is not empty,
what is suggested in place of it are the keywords and then the bound names that begin with it, each
once. A candidate that is put in its place is suggested again. -/
theorem suggestions_fit {signal : Option Signal} {depth : Nat} {requests : List Session.Request}
    {responses : List Session.Response} {session : Session}
    (reached : (Session.opening signal).respondAll depth requests = some (responses, session))
    {line : String} (program : line.toList.head? ≠ some ':') {typed after : List Char}
    (split : line.toList = typed ++ after) :
    ∃ front word, typed = front ++ word ∧
      Offers session front word after (suggest session line (byteCount typed)) := by
  have binds := Session.bindsNames_of_respondAll (Session.bindsNames_opening signal) reached
  obtain ⟨front, same, all, stops⟩ := exists_lastRun isWordCharacter typed
  generalize lastRun isWordCharacter typed = word at same all
  subst same
  have plain : (front ++ word).head? ≠ some ':' := by
    intro colon
    rw [split, List.head?_append, colon] at program
    exact program rfl
  rw [suggest_eq split plain, forWord_eq split all stops]
  refine ⟨front, word, rfl, rfl, ?_, ?_, nodup_candidatesFor binds _, ?_⟩
  · rintro rfl
    rfl
  · intro some
    have typed : String.ofList word ≠ "" := by simpa using some
    have begins : Text.hasStem (String.ofList word) = fun keyword =>
        word.isPrefixOf keyword.toList := by
      funext keyword
      rw [Text.hasStem, String.toList_ofList]
    refine ⟨session.namesWithStem (String.ofList word), ?_,
      session.store.namesWithStem_increasing _ _, ?_⟩
    · rw [candidatesFor_of_ne session typed, begins]
    · intro name
      rw [mem_namesWithStem, String.toList_ofList]
  · intro candidate suggested
    obtain ⟨letters, again⟩ := suggested_again binds suggested
    have plain' : (front ++ candidate.toList).head? ≠ some ':' := by
      cases front with
      | nil => exact fun colon => nomatch letters ':' (List.mem_of_head? colon)
      | cons first rest => exact plain
    have split' : (String.ofList (front ++ candidate.toList ++ after)).toList =
        front ++ candidate.toList ++ after := String.toList_ofList
    rw [suggest_eq split' plain', forWord_eq split' letters stops, String.ofList_toList]
    exact ⟨rfl, again⟩

/-- A word after a letter of two bytes, completed to a keyword and to a name. The input that binds
the name is interrupted before it binds another one. -/
theorem suggestions_fit_accented :
    let signal : Option Signal := some ⟨false, [false, false, true]⟩
    let requests : List Session.Request := [.run "let letter = 1; let lot = 2; let lemon = 5"]
    ∃ responses session front word,
      (Session.opening signal).respondAll 9 requests = some (responses, session) ∧
        "é+le)".toList.head? ≠ some ':' ∧ "é+le)".toList = ['é', '+', 'l', 'e'] ++ [')'] ∧
        suggest session "é+le)" 5 = ⟨3, ["let", "letter"]⟩ ∧ ['é', '+', 'l', 'e'] = front ++ word ∧
        Offers session front word [')'] (suggest session "é+le)" 5) := by
  intro signal requests
  have known : ((Session.opening signal).respondAll 9 requests).map
      (fun taken => suggest taken.2 "é+le)" 5) = some ⟨3, ["let", "letter"]⟩ := by decide +kernel
  obtain ⟨⟨responses, session⟩, responded, suggested⟩ := Option.map_eq_some_iff.mp known
  have program : "é+le)".toList.head? ≠ some ':' := by decide
  have split : "é+le)".toList = ['é', '+', 'l', 'e'] ++ [')'] := by decide
  obtain ⟨front, word, typed, offers⟩ := suggestions_fit responded program split
  exact ⟨responses, session, front, word, responded, program, split, suggested, typed, offers⟩

end Suggestions

end Monkey
