/-
This file is about the first line of a text. What is blank to the prompt has no
token of the language: its white space either separates tokens or is illegal, so
it never asks for another line. A line that is not blank decides by itself
whether it starts a command, whatever is put after it.
-/

import Monkey.Prompt.Gathering
import Monkey.Proofs.Scanning.Separation

namespace Monkey

/-! ### White space -/

namespace Text

/-- The characters that are white space, one by one. -/
def whiteCharacters : List Char :=
  whiteRanges.flatMap fun range => (List.range' range.1 (range.2 + 1 - range.1)).map Char.ofNat

theorem mem_whiteCharacters {character : Char} (white : isWhite character) :
    character ∈ whiteCharacters := by
  obtain ⟨range, listed, inside⟩ := List.any_eq_true.mp white
  rw [Bool.and_eq_true, decide_eq_true_eq, decide_eq_true_eq] at inside
  refine List.mem_flatMap.mpr ⟨range, listed, List.mem_map.mpr ⟨character.toNat, ?_, ?_⟩⟩
  · rw [List.mem_range'_1]
    omega
  · exact Char.ofNat_toNat character

instance (byte : UInt8) : Decidable (Token.InAlphabet byte) :=
  inferInstanceAs (Decidable (_ ∨ _ ∨ _ ∨ ∃ entry ∈ Token.signs, _))

/-- A byte of white space is a blank or is unknown to scanning. -/
theorem blank_or_foreign {character : Char} (white : isWhite character) :
    ∀ byte ∈ String.utf8EncodeChar character, Token.isBlank byte ∨ ¬ Token.InAlphabet byte := by
  have all : ((whiteCharacters.flatMap String.utf8EncodeChar).all fun byte =>
      decide (Token.isBlank byte ∨ ¬ Token.InAlphabet byte)) = true := by
    decide +kernel
  intro byte member
  have listed := List.mem_flatMap.mpr ⟨character, mem_whiteCharacters white, member⟩
  exact of_decide_eq_true (List.all_eq_true.mp all byte listed)

end Text

/-- Bytes that are blank or unknown to scanning hold no token of the language. -/
theorem Token.Layout.illegal {bytes : List UInt8} {tokens : List Token}
    (layout : Token.Layout bytes tokens)
    (foreign : ∀ byte ∈ bytes, Token.isBlank byte ∨ ¬ Token.InAlphabet byte) :
    ∀ token ∈ tokens, token.tag = .illegal := by
  induction layout with
  | ended _ => exact List.forall_mem_nil _
  | token _ longest _ inductionHypothesis =>
    obtain ⟨_, solid⟩ := List.forall_mem_append.mp foreign
    obtain ⟨here, there⟩ := List.forall_mem_append.mp solid
    refine List.forall_mem_cons.mpr ⟨by_contra fun legal => ?_, inductionHypothesis there⟩
    obtain ⟨head, tail, rfl, unblank, _⟩ := longest.forms.scanned
    obtain blank | unknown := here head List.mem_cons_self
    · rw [unblank] at blank
      cases blank
    · exact unknown (longest.forms.inAlphabet legal head List.mem_cons_self)

namespace Prompt

theorem excess_append (first second : List Token) :
    excess (first ++ second) = excess first + excess second := by
  induction first with
  | nil => exact (Int.zero_add _).symm
  | cons token rest inductionHypothesis =>
    rw [List.cons_append, excess, excess, inductionHypothesis, Int.add_assoc]

/-- White space opens nothing and closes nothing. -/
theorem excess_of_isBlank {text : String} (blank : Text.isBlank text) :
    excess (Token.scan text) = 0 := by
  have foreign : ∀ byte ∈ Token.bytesOf text, Token.isBlank byte ∨ ¬ Token.InAlphabet byte := by
    rw [← String.ofList_toList (s := text), Token.bytesOf_ofList]
    intro byte member
    obtain ⟨character, inside, encoded⟩ := List.mem_flatMap.mp member
    exact Text.blank_or_foreign (List.all_eq_true.mp blank character inside) byte encoded
  have illegal := (Token.layout_scanBytes (Token.bytesOf text)).illegal foreign
  show excess (Token.scanBytes (Token.bytesOf text)) = 0
  generalize Token.scanBytes (Token.bytesOf text) = tokens at illegal
  induction tokens with
  | nil => rfl
  | cons token rest inductionHypothesis =>
    obtain ⟨here, there⟩ := List.forall_mem_cons.mp illegal
    rw [excess, inductionHypothesis there, weight, here]
    rfl

end Prompt

/-! ### Commands -/

namespace Text

variable {text : String}

theorem isBlank_iff : isBlank text ↔ trimStart text.toList = [] :=
  List.all_eq_true.trans List.dropWhile_eq_nil_iff.symm

theorem trimStart_ne_nil (solid : isBlank text = false) : trimStart text.toList ≠ [] :=
  mt isBlank_iff.mpr (Bool.eq_false_iff.mp solid)

/-- To trim the start of a text that is not blank, nothing after it is looked at. -/
theorem trimStart_append (solid : isBlank text = false) (more : String) :
    trimStart (text ++ more).toList = trimStart text.toList ++ more.toList := by
  have some := trimStart_ne_nil solid
  unfold trimStart at some ⊢
  rw [String.toList_append, List.dropWhile_append, if_neg]
  rwa [List.isEmpty_iff]

end Text

namespace CommandLine

variable {text : String}

theorem isSome_parse?_iff :
    (parse? text).isSome ↔ (Text.trimStart text.toList).head? = some ':' := by
  unfold parse?
  split
  · rename_i starts
    simp [starts]
  · rename_i other
    constructor
    · nofun
    · intro starts
      obtain ⟨rest, found⟩ := List.head?_eq_some_iff.mp starts
      exact absurd found (other rest)

/-- A blank text is no command. -/
theorem parse?_of_isBlank (blank : Text.isBlank text) : parse? text = none := by
  rw [parse?, Text.isBlank_iff.mp blank]

/-- A text that is not blank is a command line exactly if it is one with more after it. -/
theorem isSome_parse?_append (solid : Text.isBlank text = false) (more : String) :
    (parse? (text ++ more)).isSome = (parse? text).isSome := by
  rw [Bool.eq_iff_iff, isSome_parse?_iff, isSome_parse?_iff, Text.trimStart_append solid,
    List.head?_append_of_ne_nil _ (Text.trimStart_ne_nil solid)]

end CommandLine

end Monkey
