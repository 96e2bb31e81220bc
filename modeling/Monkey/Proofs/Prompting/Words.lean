/-
This file compares the words of the prompt with those of the language. The prompt
goes back from the cursor over the characters of words, and scanning goes forward
over the bytes of everything before it. The characters of words are those whose
bytes are letters, and letters after another byte are scanned apart from it. So
what the prompt takes for a word is the last token before the cursor, and where it
finds none there is none that ends at the cursor.
-/

import Monkey.Proofs.Prompting.Suggesting
import Monkey.Proofs.Scanning.Seams

namespace Monkey

/-! ### Letters of the two alphabets -/

open Suggestions (isWordCharacter lastRun wordStart exists_lastRun)

namespace Token

/-- The bytes of a character that is not ASCII are no ASCII bytes. -/
theorem high_of_encoded {letter : Char} (beyond : ¬ letter.toNat < 0x80) {byte : UInt8}
    (member : byte ∈ String.utf8EncodeChar letter) : ¬ byte < 0x80 := by
  have high {code : Nat} (bounds : 0x80 ≤ code ∧ code < 0x100) : ¬ UInt8.ofNat code < 0x80 := by
    rw [UInt8.lt_iff_toNat_lt, UInt8.toNat_ofNat_of_lt' bounds.2]
    exact Nat.not_lt.mpr bounds.1
  have bound : letter.val.toNat < 0x110000 := by
    have := letter.valid
    simp only [UInt32.isValidChar, Nat.isValidChar] at this
    omega
  have code : 0x80 ≤ letter.val.toNat := Nat.not_lt.mp beyond
  unfold String.utf8EncodeChar at member
  generalize letter.val.toNat = number at code bound member
  simp only at member
  split at member
  · omega
  repeat' split at member
  all_goals
    simp only [List.mem_cons, List.not_mem_nil, or_false] at member
    rcases member with rfl | rfl | rfl | rfl <;> exact high (by omega)

/-- A byte of a character is a letter exactly if the character is one of words. -/
theorem isLetter_encoded {letter : Char} {byte : UInt8}
    (member : byte ∈ String.utf8EncodeChar letter) : isLetter byte = isWordCharacter letter := by
  by_cases ascii : letter.toNat < 0x80
  · have classes : ∀ code < 0x80,
        isLetter (UInt8.ofNat code) = isWordCharacter (Char.ofNat code) := by decide
    rw [encode_ascii ascii, List.mem_singleton] at member
    rw [member, classes _ ascii, Char.ofNat_toNat]
  · have letterless : isLetter byte = false :=
      Bool.eq_false_iff.mpr fun letter => high_of_encoded ascii member (ascii_of_isLetter letter)
    have wordless : isWordCharacter letter = false := by
      refine Bool.eq_false_iff.mpr fun word => ascii (isLetter_of_named ?_).1
      simpa only [isWordCharacter, Bool.or_eq_true, beq_iff_eq, or_assoc] using word
    rw [letterless, wordless]

end Token

/-! ### Letters at the end of a text -/

namespace Token

/-- The tags of names and of keywords. -/
def wordTags : List Tag :=
  .identifier :: keywords.map Prod.snd

/-- A name or a keyword. -/
def IsWord (token : Token) : Prop :=
  token.tag ∈ wordTags

theorem wordTag_mem (word : String) : wordTag word ∈ wordTags := by
  obtain reserved | ⟨_, tagged⟩ := getD_lookup_cases keywords .identifier word
  · exact List.mem_cons_of_mem _ (List.mem_map_of_mem (f := Prod.snd) reserved)
  · exact List.mem_cons.mpr (.inl tagged)

theorem signTag_not_mem (sign : Char) : signTag sign ∉ wordTags := by
  have marks : ∀ entry ∈ signs, entry.2 ∉ wordTags := by decide
  obtain known | ⟨_, tagged⟩ := getD_lookup_cases signs .illegal sign
  · exact marks _ known
  · unfold signTag
    rw [tagged]
    decide

/-- A word that takes all of some bytes ends in a letter. -/
theorem Takes.isLetter_getLast {bytes : List UInt8} {token : Token} (takes : Takes bytes token)
    (word : token.IsWord) : ∀ last ∈ bytes.getLast?, isLetter last := by
  cases takes with
  | word letters => exact fun last ends => letters last (List.mem_of_getLast? ends)
  | number => exact absurd word (by decide : Tag.integer ∉ wordTags)
  | equal => exact absurd word (by decide : Tag.equal ∉ wordTags)
  | notEqual => exact absurd word (by decide : Tag.notEqual ∉ wordTags)
  | single => exact absurd word (signTag_not_mem _)

/-- Letters after bytes that do not end in one are scanned apart from them. -/
theorem scanBytes_append_letters {bytes letters : List UInt8}
    (stops : ∀ last ∈ bytes.getLast?, isLetter last = false)
    (all : ∀ byte ∈ letters, isLetter byte) :
    scanBytes (bytes ++ letters) = scanBytes bytes ++ scanBytes letters := by
  obtain ⟨_, scans⟩ | ⟨before, token, head, tail, tokens, ending⟩ := (layout_scanBytes bytes).ends
  · exact scans letters
  · have ends := List.getLast?_eq_some_getLast (List.cons_ne_nil head tail)
    generalize (head :: tail).getLast (List.cons_ne_nil head tail) = last at ends
    obtain ⟨others, same⟩ := ending.suffix
    have letterless : isLetter last = false := by
      refine stops last ?_
      rw [← same, List.getLast?_append_of_ne_nil _ (List.cons_ne_nil _ _)]
      exact ends
    rw [tokens, ending.scanBytes_append_iff ends]
    rintro next first (letter | digit | single)
    · exact Bool.false_ne_true (letterless.symm.trans letter.1)
    · have next := all next (List.mem_of_head? first)
      exact Bool.false_ne_true ((not_isLetter_of_isDigit digit.2).symm.trans next)
    · exact absurd (all equalsSign (List.mem_of_head? first)) (by decide)

/-- A text of letters is scanned as one word. -/
theorem scan_word {word : String} (present : word ≠ "")
    (letters : ∀ byte ∈ bytesOf word, isLetter byte) : scan word = [⟨wordTag word, word⟩] := by
  have layout := laidOut_word present letters edge_nil [] (.ended (List.forall_mem_nil _))
  rw [List.append_nil, List.append_nil] at layout
  exact layout.scanned

/-- What ends a text and is a word ends in a letter. -/
theorem Closes.isLetter_getLast {token : Token} {text : String} (closes : Closes token text)
    (word : token.IsWord) : ∃ last ∈ (bytesOf text).getLast?, isLetter last := by
  obtain ⟨final, solid⟩ := closes
  unfold scan at final
  obtain ⟨blank, _⟩ | ⟨before, token', head, tail, tokens, ending⟩ :=
    (layout_scanBytes (bytesOf text)).ends
  · -- Without a blank at the end there would be no byte at all, and so no token.
    cases ends : (bytesOf text).getLast? with
    | none =>
      rw [List.getLast?_eq_none_iff.mp ends, scanBytes_of_blank (List.forall_mem_nil _)] at final
      cases final
    | some last => exact absurd (blank last ends) (Bool.eq_false_iff.mp (solid last ends))
  · rw [tokens, List.getLast?_concat, Option.some_inj] at final
    subst final
    have ends := List.getLast?_eq_some_getLast (List.cons_ne_nil head tail)
    obtain ⟨others, same⟩ := ending.suffix
    refine ⟨_, ?_, (takes_of_whole ending.whole).isLetter_getLast word _ ends⟩
    rw [← same, List.getLast?_append_of_ne_nil _ (List.cons_ne_nil _ _)]
    exact ends

end Token

/-! ### The word before the cursor -/

namespace Suggestions

open Prompt (byteCount)
open Token

variable {characters : List Char}

theorem byteCount_eq_zero (none : byteCount characters = 0) : characters = [] := by
  cases characters with
  | nil => rfl
  | cons character rest =>
    have some := character.utf8Size_pos
    rw [byteCount] at none
    omega

/-- A text of characters of words is made of letters. -/
theorem letters_of_word (all : ∀ character ∈ characters, isWordCharacter character) :
    ∀ byte ∈ bytesOf (String.ofList characters), isLetter byte := by
  intro byte member
  rw [bytesOf_ofList] at member
  obtain ⟨character, inside, encoded⟩ := List.mem_flatMap.mp member
  rw [isLetter_encoded encoded]
  exact all character inside

/-- The last byte of a text is one of its last character. -/
theorem isLetter_getLast {text : String} :
    ∀ last ∈ (bytesOf text).getLast?,
      ∃ character ∈ text.toList.getLast?, isLetter last = isWordCharacter character := by
  rw [← String.ofList_toList (s := text), bytesOf_ofList, String.toList_ofList]
  intro last ends
  obtain nothing | ⟨before, character, split⟩ := List.eq_nil_or_concat text.toList
  · rw [nothing] at ends
    cases ends
  · rw [split, List.concat_eq_append, List.flatMap_append, List.flatMap_singleton,
      List.getLast?_append_of_ne_nil _ String.utf8EncodeChar_ne_nil] at ends
    refine ⟨character, ?_, isLetter_encoded (List.mem_of_getLast? ends)⟩
    rw [split, List.concat_eq_append, List.getLast?_concat]
    rfl

/-- A word after a text that does not end in one is the last token, and it ends at the cursor. -/
theorem closes_word {front word : List Char} (present : word ≠ [])
    (all : ∀ character ∈ word, isWordCharacter character)
    (stops : ∀ character ∈ front.getLast?, isWordCharacter character = false) :
    Closes ⟨wordTag (String.ofList word), String.ofList word⟩
      (String.ofList front ++ String.ofList word) := by
  have letters := letters_of_word all
  have some : String.ofList word ≠ "" := by simpa using present
  have bytes : bytesOf (String.ofList word) ≠ [] := fun nothing => some (bytesOf_injective nothing)
  have apart : ∀ last ∈ (bytesOf (String.ofList front)).getLast?, isLetter last = false := by
    intro last ends
    obtain ⟨character, final, same⟩ := isLetter_getLast last ends
    rw [String.toList_ofList] at final
    rw [same, stops character final]
  refine ⟨?_, fun last ends => ?_⟩
  · have alone := scan_word some letters
    unfold scan at alone ⊢
    rw [bytesOf_append, scanBytes_append_letters apart letters, alone, List.getLast?_concat]
  · rw [bytesOf_append, List.getLast?_append_of_ne_nil _ bytes] at ends
    exact not_isBlank_of_isLetter (letters last (List.mem_of_getLast? ends))

/-- At a cursor behind a last run of characters of words, the word starts where the run does. -/
theorem wordStart_append {front word : List Char} {typed : String}
    (split : typed.toList = front ++ word)
    (all : ∀ character ∈ word, isWordCharacter character)
    (stops : ∀ character ∈ front.getLast?, isWordCharacter character = false) (after : String) :
    wordStart (typed ++ after) (byteCount typed.toList) = byteCount front := by
  have found : Suggestions.word (typed ++ after) (byteCount typed.toList) = word := by
    rw [Suggestions.word, before_eq String.toList_append, split, lastRun_append all stops]
  unfold wordStart
  rw [found, split, byteCount_append, Nat.add_sub_cancel]

/-- Wherever the cursor stands between two characters of a line, the text before it ends in what the
prompt takes for the word there. If that is not empty, it is the last token of the text before the
cursor, a name or a keyword; and if it is, no name and no keyword ends at the cursor. -/
theorem words_are_tokens (typed after : String) :
    let cursor := byteCount typed.toList
    let start := wordStart (typed ++ after) cursor
    ∃ front word, typed = front ++ word ∧ start = byteCount front.toList ∧ start ≤ cursor ∧
      (start < cursor → ∃ token, Closes token typed ∧ token.IsWord ∧ token.text = word) ∧
      (start = cursor → ∀ token, Closes token typed → ¬ token.IsWord) := by
  intro cursor start
  obtain ⟨front, same, all, stops⟩ := exists_lastRun isWordCharacter typed.toList
  generalize lastRun isWordCharacter typed.toList = word at same all
  have split : typed = String.ofList front ++ String.ofList word := by
    rw [← String.ofList_append, ← same, String.ofList_toList]
  have place : start = byteCount front := wordStart_append same all stops after
  have total : cursor = byteCount front + byteCount word := by rw [← byteCount_append, ← same]
  refine ⟨String.ofList front, String.ofList word, split, ?_, Nat.sub_le _ _, ?_, ?_⟩
  · rw [String.toList_ofList, place]
  · intro before
    have present : word ≠ [] := by
      rintro rfl
      exact absurd (total.trans place.symm) (Nat.ne_of_gt before)
    rw [split]
    exact ⟨_, closes_word present all stops, wordTag_mem _, rfl⟩
  · intro reached token closes isWord
    obtain rfl : word = [] := byteCount_eq_zero (by omega)
    obtain ⟨last, ends, letter⟩ := closes.isLetter_getLast isWord
    obtain ⟨character, final, alike⟩ := isLetter_getLast last ends
    rw [same, List.append_nil] at final
    rw [alike, stops character final] at letter
    cases letter

/-- Digits in front of letters are a token of their own. -/
theorem words_are_tokens_digits :
    wordStart "12abc" 4 = 2 ∧ ∃ front word token, "12ab" = front ++ word ∧
      byteCount front.toList = 2 ∧ Closes token "12ab" ∧ token.IsWord ∧ token.text = word := by
  have start : wordStart ("12ab" ++ "c") (byteCount "12ab".toList) = 2 := by decide
  obtain ⟨front, word, split, place, _, inside, _⟩ := words_are_tokens "12ab" "c"
  obtain ⟨token, closes, isWord, text⟩ := inside (by rw [start]; decide)
  exact ⟨by decide, front, word, token, split, place.symm.trans start, closes, isWord, text⟩

end Suggestions

end Monkey
