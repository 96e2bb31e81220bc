/-
This file says which programs are plain: bindings and returns with at most one
expression after them, whose expressions hold no conditional and no function.
Every name is a word that can be read as one, and no integer is negative, since
an integer is only read with a sign as an operator and its operand.

A plain name is one token, and a plain integer is one token whose digits have
its value.
-/

import Monkey.Numeral
import Monkey.Program.Text
import Monkey.Proofs.Scanning.Adjacency

namespace Monkey

/-! ### Plain programs -/

/-- A word of letters, underscores and question marks that is not a keyword. -/
def IsName (word : String) : Prop :=
  word ≠ "" ∧ (∀ letter ∈ word.toList, letter.isAlpha ∨ letter = '_' ∨ letter = '?') ∧
    word ∉ Token.keywords.map Prod.fst

-- Over the letters of the word, not over all characters, of which there are finitely many as well.
instance (word : String) : Decidable (IsName word) :=
  have : Decidable (∀ letter ∈ word.toList, letter.isAlpha ∨ letter = '_' ∨ letter = '?') :=
    List.decidableBAll _ _
  inferInstanceAs (Decidable (_ ∧ _ ∧ _))

/-- An expression without conditionals and functions. -/
inductive Expression.Plain : Expression → Prop
  | identifier {name : String} (named : IsName name) : Plain (.identifier name)
  | integer {value : Int64} (natural : 0 ≤ value) : Plain (.integer value)
  | boolean {value : Bool} : Plain (.boolean value)
  | prefixed {operator : PrefixOperator} {operand : Expression} (inner : Plain operand) :
    Plain (.prefixed operator operand)
  | infixed {left right : Expression} {operator : InfixOperator} (first : Plain left)
      (second : Plain right) : Plain (.infixed left operator right)
  | call {callee : Expression} {given : List Expression} (head : Plain callee)
      (arguments : ∀ argument ∈ given, Plain argument) : Plain (.call callee given)

/-- Bindings and returns of plain expressions, and then at most one plain expression. -/
inductive PlainStatements : List Statement → Prop
  | none : PlainStatements []
  | last {value : Expression} (plain : value.Plain) : PlainStatements [.expression value]
  | binding {name : String} {value : Expression} {others : List Statement} (named : IsName name)
      (plain : value.Plain) (rest : PlainStatements others) :
    PlainStatements (.binding name value :: others)
  | bareReturn {others : List Statement} (rest : PlainStatements others) :
    PlainStatements (.returning none :: others)
  | returning {value : Expression} {others : List Statement} (plain : value.Plain)
      (rest : PlainStatements others) : PlainStatements (.returning (some value) :: others)

/-! ### Bytes of words and numbers -/

open Token

theorem bytesOf_of_ascii {text : String} (ascii : ∀ letter ∈ text.toList, letter.toNat < 0x80) :
    bytesOf text = text.toList.map fun letter => UInt8.ofNat letter.toNat := by
  rw [← String.ofList_toList (s := text), bytesOf_ofList, String.toList_ofList]
  generalize text.toList = letters at ascii
  induction letters with
  | nil => rfl
  | cons letter others inductionHypothesis =>
    obtain ⟨here, there⟩ := List.forall_mem_cons.mp ascii
    rw [List.flatMap_cons, List.map_cons, encode_ascii here, inductionHypothesis there]
    rfl

/-- A class of bytes that holds of each character of a text holds of the bytes of the text. -/
theorem forall_mem_bytesOf {text : String} {holds : UInt8 → Bool}
    (each : ∀ letter ∈ text.toList,
      letter.toNat < 0x80 ∧ holds (UInt8.ofNat letter.toNat)) :
    ∀ byte ∈ bytesOf text, holds byte := by
  intro byte member
  rw [bytesOf_of_ascii fun letter there => (each letter there).1] at member
  obtain ⟨letter, there, rfl⟩ := List.mem_map.mp member
  exact (each letter there).2

/-- The characters of names are ASCII letters. -/
theorem isLetter_of_named {letter : Char} (named : letter.isAlpha ∨ letter = '_' ∨ letter = '?') :
    letter.toNat < 0x80 ∧ isLetter (UInt8.ofNat letter.toNat) := by
  have classes : ∀ code < 0x80, 65 ≤ code ∧ code ≤ 90 ∨ 97 ≤ code ∧ code ≤ 122 →
      isLetter (UInt8.ofNat code) := by decide
  rcases named with alphabetic | rfl | rfl
  · have either : letter.isUpper ∨ letter.isLower := Bool.or_eq_true_iff.mp alphabetic
    have upper (capital : letter.isUpper) : 65 ≤ letter.toNat ∧ letter.toNat ≤ 90 :=
      of_decide_eq_true capital
    have lower (small : letter.isLower) : 97 ≤ letter.toNat ∧ letter.toNat ≤ 122 :=
      (Bool.and_eq_true_iff.mp small).imp of_decide_eq_true of_decide_eq_true
    have ranges := either.imp upper lower
    exact ⟨by omega, classes _ (by omega) ranges⟩
  · decide
  · decide

theorem isDigit_of_decimal {letter : Char} (decimal : letter.isDigit) :
    letter.toNat < 0x80 ∧ isDigit (UInt8.ofNat letter.toNat) := by
  have classes : ∀ code < 0x80, 48 ≤ code ∧ code ≤ 57 → isDigit (UInt8.ofNat code) := by decide
  have bounds : 48 ≤ letter.toNat ∧ letter.toNat ≤ 57 := Char.isDigit_iff_toNat.mp decimal
  exact ⟨by omega, classes _ (by omega) bounds⟩

theorem IsName.laidOut {name : String} (named : IsName name) {rest : List UInt8}
    (edge : Edge rest) : LaidOut name [⟨.identifier, name⟩] rest := by
  obtain ⟨present, letters, free⟩ := named
  have word := laidOut_word present
    (forall_mem_bytesOf fun letter member => isLetter_of_named (letters letter member)) edge
  rwa [wordTag_of_not_mem free] at word

/-! ### Integers -/

/-- An integer that is not negative is written in decimal digits. -/
theorem toList_integerText {value : Int64} (natural : 0 ≤ value) :
    (integerText value).toList = Nat.toDigits 10 value.toInt.toNat := by
  have nonnegative : 0 ≤ value.toInt := Int64.le_iff_toInt_le.mp natural
  unfold integerText
  rw [← Int.toNat_of_nonneg nonnegative, Int.toNat_natCast]
  exact Nat.toList_repr

theorem laidOut_integerText {value : Int64} (natural : 0 ≤ value) {rest : List UInt8}
    (edge : Edge rest) : LaidOut (integerText value) [⟨.integer, integerText value⟩] rest := by
  have written := toList_integerText natural
  refine laidOut_number ?_ (forall_mem_bytesOf fun letter member => ?_) edge
  · rintro nothing
    rw [nothing] at written
    exact Nat.toDigits_ne_nil written.symm
  · rw [written] at member
    exact isDigit_of_decimal (Nat.isDigit_of_mem_toDigits (by decide) (by decide) member)

/-- The digits of an integer have its value, up to the largest one. -/
theorem read?_integerText {value : Int64} (natural : 0 ≤ value) :
    Numeral.read? (integerText value) = some value := by
  have nonnegative : 0 ≤ value.toInt := Int64.le_iff_toInt_le.mp natural
  have written := toList_integerText natural
  have decimal : ∀ letter ∈ Nat.toDigits 10 value.toInt.toNat, letter.isDigit :=
    fun letter member => Nat.isDigit_of_mem_toDigits (by decide) (by decide) member
  have magnitude : Numeral.magnitude? (Nat.toDigits 10 value.toInt.toNat) =
      some value.toInt.toNat := by
    unfold Numeral.magnitude?
    rw [if_pos ⟨Nat.toDigits_ne_nil, List.all_eq_true.mpr decimal⟩, Nat.ofDigitChars_ten_toDigits]
  have word : Numeral.word? value.toInt = some value := by
    unfold Numeral.word?
    rw [if_pos ⟨Int64.minValue_le_toInt value, Int64.toInt_le value⟩, Int64.ofInt_toInt]
  unfold Numeral.read?
  rw [written]
  split
  · rename_i found
    exact absurd (decimal '+' (found ▸ List.mem_cons_self)) (by decide)
  · rename_i found
    exact absurd (decimal '-' (found ▸ List.mem_cons_self)) (by decide)
  · rw [magnitude, Option.bind_some, Int.toNat_of_nonneg nonnegative, word]

end Monkey
