/-
This file says what words and numbers of a source look like. A token that is tagged
as a name has a text of letters that is no keyword, and one that is tagged as an
integer has digits only, so its value is not negative.
-/

import Monkey.Proofs.Printing.Plain
import Monkey.Proofs.Scanning.Separation

namespace Monkey

/-! ### Characters of words and numbers -/

namespace Token

theorem named_of_isLetter {byte : UInt8} (letter : isLetter byte) :
    (character byte).isAlpha ∨ character byte = '_' ∨ character byte = '?' := by
  have classes : ∀ code < 0x80, isLetter (UInt8.ofNat code) →
      (character (UInt8.ofNat code)).isAlpha ∨ character (UInt8.ofNat code) = '_' ∨
        character (UInt8.ofNat code) = '?' := by decide
  have known := classes byte.toNat (ascii_of_isLetter letter)
  rw [UInt8.ofNat_toNat] at known
  exact known letter

theorem decimal_of_isDigit {byte : UInt8} (digit : isDigit byte) : (character byte).isDigit := by
  have classes : ∀ code < 0x80, isDigit (UInt8.ofNat code) →
      (character (UInt8.ofNat code)).isDigit := by decide
  have known := classes byte.toNat (ascii_of_isDigit digit)
  rw [UInt8.ofNat_toNat] at known
  exact known digit

/-- A property of the characters of ASCII bytes holds of those of a text with such bytes. -/
theorem forall_mem_toList {text : String} {Holds : Char → Prop}
    (each : ∀ byte ∈ bytesOf text, byte < 0x80 ∧ Holds (character byte)) :
    ∀ letter ∈ text.toList, Holds letter := by
  rw [← spelling_bytesOf fun byte member => (each byte member).1, spelling, String.toList_ofList]
  exact List.forall_mem_map.mpr fun byte member => (each byte member).2

end Token

/-! ### Values of digits -/

theorem Numeral.toInt_of_word? {number : Int} {value : Int64} (fits : word? number = some value) :
    value.toInt = number := by
  unfold word? at fits
  split at fits
  · rename_i bounds
    obtain rfl := Option.some.inj fits
    rw [Int64.toInt_minValue, Int64.toInt_maxValue] at bounds
    exact Int64.toInt_ofInt_of_le (by omega) (by omega)
  · cases fits

/-- A numeral without a sign is not negative. -/
theorem Numeral.natural_of_read? {text : String} {value : Int64}
    (digits : ∀ letter ∈ text.toList, letter.isDigit) (read : read? text = some value) :
    0 ≤ value.toInt := by
  have natural : ∀ {letters : List Char},
      ((magnitude? letters).bind fun number => word? number) = some value → 0 ≤ value.toInt := by
    intro letters found
    obtain ⟨number, _, fits⟩ := Option.bind_eq_some_iff.mp found
    rw [toInt_of_word? fits]
    exact Int.natCast_nonneg number
  unfold read? at read
  split at read
  · exact natural read
  · rename_i minus
    exact absurd (digits '-' (minus ▸ List.mem_cons_self)) (by decide)
  · exact natural read

/-! ### Lexical tokens -/

/-- What a token can become is a legal leaf. -/
structure Token.Lexical (token : Token) : Prop where
  name : token.tag = .identifier → IsName token.text
  integer : ∀ value, token.tag = .integer → Numeral.read? token.text = some value →
    0 ≤ value.toInt

theorem Token.lexical_endOfInput : endOfInput.Lexical :=
  ⟨nofun, nofun⟩

namespace Token

theorem Forms.lexical {span : List UInt8} {token : Token} (forms : Forms span token) :
    token.Lexical := by
  have reserved : ∀ entry ∈ keywords, entry.2 ≠ .identifier ∧ entry.2 ≠ .integer := by decide
  have signed : ∀ entry ∈ signs, entry.2 ≠ .identifier ∧ entry.2 ≠ .integer := by decide
  cases forms with
  | keyword _ _ known =>
    obtain ⟨noName, noInteger⟩ := reserved _ known
    exact ⟨fun tagged => absurd tagged noName, fun _ tagged => absurd tagged noInteger⟩
  | name present letters spelled free tagged =>
    subst spelled
    refine ⟨fun _ => ⟨?_, ?_, free⟩, fun _ other => nomatch tagged.symm.trans other⟩
    · intro nothing
      rw [nothing] at present
      exact present rfl
    · exact forall_mem_toList fun byte member =>
        ⟨ascii_of_isLetter (letters byte member), named_of_isLetter (letters byte member)⟩
  | number _ digits spelled tagged =>
    subst spelled
    refine ⟨fun other => (nomatch tagged.symm.trans other), fun value _ read => ?_⟩
    exact Numeral.natural_of_read? (forall_mem_toList fun byte member =>
      ⟨ascii_of_isDigit (digits byte member), decimal_of_isDigit (digits byte member)⟩) read
  | equal | notEqual | beyond => exact ⟨nofun, nofun⟩
  | sign known =>
    obtain ⟨noName, noInteger⟩ := signed _ known
    exact ⟨fun tagged => absurd tagged noName, fun _ tagged => absurd tagged noInteger⟩
  | foreign _ _ _ tagged =>
    exact ⟨fun other => (nomatch tagged.symm.trans other),
      fun _ other => nomatch tagged.symm.trans other⟩

theorem Layout.lexical {bytes : List UInt8} {tokens : List Token} (layout : Layout bytes tokens) :
    ∀ token ∈ tokens, token.Lexical := by
  induction layout with
  | ended _ => exact List.forall_mem_nil _
  | token _ longest _ inductionHypothesis =>
    exact List.forall_mem_cons.mpr ⟨longest.forms.lexical, inductionHypothesis⟩

/-- All tokens of a source can become legal leaves only. -/
theorem lexical_scan (source : String) : ∀ token ∈ scan source, token.Lexical :=
  (layout_scanBytes _).lexical

end Token

end Monkey
