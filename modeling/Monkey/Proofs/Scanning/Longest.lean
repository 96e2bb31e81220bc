/-
This file says what the longest token at the start of some bytes is, without
scanning them. The bytes that a token can be made of are given by rules for one
token alone: a run of letters or of digits, one of the two double signs, or a
single byte. Among the runs that some bytes start with, the longest is the span
of their first token, and that is the one which scanning takes.
-/

import Monkey.Token.Scan
import Mathlib.Data.List.Infix
import Mathlib.Data.List.TakeWhile

namespace Monkey.Token

/-! ### Bytes of texts -/

theorem bytesOf_append (first second : String) :
    bytesOf (first ++ second) = bytesOf first ++ bytesOf second := by
  unfold bytesOf
  rw [String.toByteArray_append, ByteArray.data_append, Array.toList_append]

theorem bytesOf_ofList (characters : List Char) :
    bytesOf (String.ofList characters) = characters.flatMap String.utf8EncodeChar := by
  unfold bytesOf
  rw [String.toByteArray_ofList, List.utf8Encode]
  simp

theorem bytesOf_injective {first second : String} (same : bytesOf first = bytesOf second) :
    first = second := by
  unfold bytesOf at same
  exact String.toByteArray_inj.mp (ByteArray.ext (Array.toList_inj.mp same))

theorem encode_ascii {letter : Char} (ascii : letter.toNat < 0x80) :
    String.utf8EncodeChar letter = [UInt8.ofNat letter.toNat] := by
  unfold String.utf8EncodeChar
  exact if_pos (Nat.le_of_lt_succ ascii)

theorem encode_character {byte : UInt8} (ascii : byte < 0x80) :
    String.utf8EncodeChar (character byte) = [byte] := by
  have same : (character byte).toNat = byte.toNat := by
    unfold character
    rw [if_pos ascii]
    rfl
  rw [encode_ascii (same ▸ UInt8.lt_iff_toNat_lt.mp ascii), same, UInt8.ofNat_toNat]

/-- The text of ASCII bytes has just these bytes. -/
theorem bytesOf_spelling {bytes : List UInt8} (ascii : ∀ byte ∈ bytes, byte < 0x80) :
    bytesOf (spelling bytes) = bytes := by
  unfold spelling
  rw [bytesOf_ofList]
  induction bytes with
  | nil => rfl
  | cons byte bytes inductionHypothesis =>
    obtain ⟨here, there⟩ := List.forall_mem_cons.mp ascii
    rw [List.map_cons, List.flatMap_cons, encode_character here, inductionHypothesis there]
    rfl

/-- A text of ASCII bytes is the one that these bytes spell. -/
theorem spelling_bytesOf {text : String} (ascii : ∀ byte ∈ bytesOf text, byte < 0x80) :
    spelling (bytesOf text) = text :=
  bytesOf_injective (bytesOf_spelling ascii)

theorem ascii_of_isLetter {byte : UInt8} (letter : isLetter byte) : byte < 0x80 := by
  simp only [isLetter, Bool.or_eq_true, Bool.and_eq_true, decide_eq_true_eq, beq_iff_eq] at letter
  simp only [UInt8.le_iff_toNat_le, UInt8.lt_iff_toNat_lt, ← UInt8.toNat_inj] at letter ⊢
  simp only [UInt8.reduceToNat] at letter ⊢
  omega

theorem ascii_of_isBlank {byte : UInt8} (blank : isBlank byte) : byte < 0x80 := by
  simp only [isBlank, Bool.or_eq_true, beq_iff_eq] at blank
  obtain ((rfl | rfl) | rfl) | rfl := blank <;> exact UInt8.lt_iff_toNat_lt.mpr (by decide)

theorem ascii_of_isDigit {byte : UInt8} (digit : isDigit byte) : byte < 0x80 := by
  simp only [isDigit, Bool.and_eq_true, decide_eq_true_eq] at digit
  simp only [UInt8.le_iff_toNat_le, UInt8.lt_iff_toNat_lt] at digit ⊢
  simp only [UInt8.reduceToNat] at digit ⊢
  omega

/-! ### Tokens by themselves -/

/-- The bytes that scanning knows: blanks, letters, digits and signs. -/
def InAlphabet (byte : UInt8) : Prop :=
  isBlank byte ∨ isLetter byte ∨ isDigit byte ∨
    ∃ entry ∈ signs, bytesOf (String.singleton entry.1) = [byte]

/-- The bytes form the token by themselves, whatever stands around them. Its text has exactly these
bytes, except that a byte which is not ASCII is shown as the replacement character. -/
inductive Forms : List UInt8 → Token → Prop
  | keyword {span : List UInt8} {token : Token} (letters : ∀ byte ∈ span, isLetter byte)
      (spelled : bytesOf token.text = span) (reserved : (token.text, token.tag) ∈ keywords) :
    Forms span token
  | name {span : List UInt8} {token : Token} (present : span ≠ [])
      (letters : ∀ byte ∈ span, isLetter byte) (spelled : bytesOf token.text = span)
      (free : token.text ∉ keywords.map Prod.fst) (tagged : token.tag = .identifier) :
    Forms span token
  | number {span : List UInt8} {token : Token} (present : span ≠ [])
      (digits : ∀ byte ∈ span, isDigit byte) (spelled : bytesOf token.text = span)
      (tagged : token.tag = .integer) : Forms span token
  | equal : Forms [equalsSign, equalsSign] ⟨.equal, "=="⟩
  | notEqual : Forms [bangSign, equalsSign] ⟨.notEqual, "!="⟩
  | sign {mark : Char} {tag : Tag} (known : (mark, tag) ∈ signs) :
    Forms (bytesOf (String.singleton mark)) ⟨tag, String.singleton mark⟩
  | foreign {byte : UInt8} {token : Token} (outside : ¬ InAlphabet byte) (ascii : byte < 0x80)
      (spelled : bytesOf token.text = [byte]) (tagged : token.tag = .illegal) : Forms [byte] token
  | beyond {byte : UInt8} (high : 0x80 ≤ byte) : Forms [byte] ⟨.illegal, "\uFFFD"⟩

/-- The span is the longest one that forms a token at the start of these bytes. -/
structure Longest (span : List UInt8) (token : Token) (rest : List UInt8) : Prop where
  forms : Forms span token
  longest : ∀ other formed, other <+: span ++ rest → Forms other formed →
    other.length ≤ span.length

/-! ### Tables of tags -/

/-- What is looked up is an entry of the table, or the default for a key that has none. -/
theorem getD_lookup_cases {Key : Type} [BEq Key] [LawfulBEq Key] (entries : List (Key × Tag))
    (default : Tag) (key : Key) :
    (key, (entries.lookup key).getD default) ∈ entries ∨
      key ∉ entries.map Prod.fst ∧ (entries.lookup key).getD default = default := by
  cases found : entries.lookup key with
  | none =>
    refine .inr ⟨fun member => ?_, rfl⟩
    obtain ⟨entry, there, rfl⟩ := List.mem_map.mp member
    have other := List.lookup_eq_none_iff.mp found entry there
    simp at other
  | some tag =>
    obtain ⟨before, after, rfl, _⟩ := List.lookup_eq_some_iff.mp found
    exact .inl (List.mem_append_right _ List.mem_cons_self)

theorem wordTag_of_mem {word : String} {tag : Tag} (reserved : (word, tag) ∈ keywords) :
    wordTag word = tag := by
  have known : ∀ entry ∈ keywords, wordTag entry.1 = entry.2 := by decide
  exact known (word, tag) reserved

theorem wordTag_of_not_mem {word : String} (free : word ∉ keywords.map Prod.fst) :
    wordTag word = .identifier := by
  obtain member | ⟨_, tagged⟩ := getD_lookup_cases keywords .identifier word
  · exact absurd (List.mem_map_of_mem member) free
  · exact tagged

/-- A sign is one byte, which is in no other class and is scanned as the sign. -/
theorem byte_of_sign {mark : Char} {tag : Tag} (known : (mark, tag) ∈ signs) :
    ∃ byte, bytesOf (String.singleton mark) = [byte] ∧ isLetter byte = false ∧
      isDigit byte = false ∧ isBlank byte = false ∧
      lexeme byte [] = (⟨tag, String.singleton mark⟩, []) := by
  have marks : ∀ entry ∈ signs,
      bytesOf (String.singleton entry.1) = [UInt8.ofNat entry.1.toNat] ∧
        isLetter (UInt8.ofNat entry.1.toNat) = false ∧
        isDigit (UInt8.ofNat entry.1.toNat) = false ∧
        isBlank (UInt8.ofNat entry.1.toNat) = false ∧
        lexeme (UInt8.ofNat entry.1.toNat) [] = (⟨entry.2, String.singleton entry.1⟩, []) := by
    decide
  exact ⟨_, marks (mark, tag) known⟩

/-! ### Classes of bytes -/

theorem not_isBlank_of_isLetter {byte : UInt8} (letter : isLetter byte) :
    isBlank byte = false := by
  simp only [isLetter, isBlank, Bool.or_eq_true, Bool.or_eq_false_iff, Bool.and_eq_true,
    decide_eq_true_eq, beq_iff_eq, beq_eq_false_iff_ne, ne_eq, UInt8.le_iff_toNat_le,
    ← UInt8.toNat_inj, UInt8.reduceToNat] at letter ⊢
  omega

theorem not_isBlank_of_isDigit {byte : UInt8} (digit : isDigit byte) : isBlank byte = false := by
  simp only [isDigit, isBlank, Bool.or_eq_false_iff, Bool.and_eq_true, decide_eq_true_eq,
    beq_eq_false_iff_ne, ne_eq, UInt8.le_iff_toNat_le, ← UInt8.toNat_inj,
    UInt8.reduceToNat] at digit ⊢
  omega

theorem not_isLetter_of_isDigit {byte : UInt8} (digit : isDigit byte) : isLetter byte = false := by
  cases letter : isLetter byte with
  | false => rfl
  | true =>
    simp only [isLetter, isDigit, Bool.or_eq_true, Bool.and_eq_true, decide_eq_true_eq, beq_iff_eq,
      UInt8.le_iff_toNat_le, ← UInt8.toNat_inj, UInt8.reduceToNat] at letter digit
    omega

/-! ### Scanning what forms a token -/

/-- A run of a class, such as one of bytes, ends before what leaves the class. -/
theorem span_append {Item : Type} {holds : Item → Bool} {run rest : List Item}
    (all : ∀ item ∈ run, holds item) (stops : ∀ item ∈ rest.head?, holds item = false) :
    (run ++ rest).takeWhile holds = run ∧ (run ++ rest).dropWhile holds = rest := by
  rw [List.takeWhile_append_of_pos all, List.dropWhile_append_of_pos all]
  cases rest with
  | nil => simp
  | cons item after =>
    have leaves : ¬ holds item := Bool.eq_false_iff.mp (stops item rfl)
    rw [List.takeWhile_cons_of_neg leaves, List.dropWhile_cons_of_neg leaves, List.append_nil]
    exact ⟨rfl, rfl⟩

theorem lexeme_of_letters {head : UInt8} {tail rest : List UInt8}
    (letters : ∀ byte ∈ head :: tail, isLetter byte)
    (stops : ∀ byte ∈ rest.head?, isLetter byte = false) :
    lexeme head (tail ++ rest) =
      (⟨wordTag (spelling (head :: tail)), spelling (head :: tail)⟩, rest) := by
  obtain ⟨first, others⟩ := List.forall_mem_cons.mp letters
  obtain ⟨taken, left⟩ := span_append others stops
  unfold lexeme
  rw [if_pos first, taken, left]

theorem lexeme_of_digits {head : UInt8} {tail rest : List UInt8}
    (digits : ∀ byte ∈ head :: tail, isDigit byte)
    (stops : ∀ byte ∈ rest.head?, isDigit byte = false) :
    lexeme head (tail ++ rest) = (⟨.integer, spelling (head :: tail)⟩, rest) := by
  obtain ⟨first, others⟩ := List.forall_mem_cons.mp digits
  obtain ⟨taken, left⟩ := span_append others stops
  unfold lexeme
  rw [if_neg (Bool.eq_false_iff.mp (not_isLetter_of_isDigit first)), if_pos first, taken, left]

/-- A byte that is neither a letter nor a digit is scanned as a sign, or as illegal, unless it is
the first one of a double sign. -/
theorem lexeme_of_single {byte : UInt8} (letter : isLetter byte = false)
    (digit : isDigit byte = false) {rest : List UInt8}
    (single : byte = equalsSign ∨ byte = bangSign → rest.head? ≠ some equalsSign) :
    lexeme byte rest = (⟨signTag (character byte), spelling [byte]⟩, rest) := by
  unfold lexeme
  rw [letter, digit, if_neg Bool.false_ne_true, if_neg Bool.false_ne_true,
    if_neg fun both => single (.inl both.1) both.2, if_neg fun both => single (.inr both.1) both.2]

/-- What forms a token starts with no blank, and is scanned as that token if nothing follows. -/
theorem Forms.scanned {span : List UInt8} {token : Token} (forms : Forms span token) :
    ∃ head tail, span = head :: tail ∧ isBlank head = false ∧ lexeme head tail = (token, []) := by
  have word : ∀ {head tail}, span = head :: tail → (∀ byte ∈ span, isLetter byte) →
      bytesOf token.text = span → wordTag token.text = token.tag →
      isBlank head = false ∧ lexeme head tail = (token, []) := by
    rintro head tail rfl letters spelled tagged
    have whole := spelling_bytesOf fun byte member =>
      ascii_of_isLetter (letters byte (spelled ▸ member))
    have scanned : lexeme head (tail ++ []) = _ := lexeme_of_letters letters nofun
    rw [List.append_nil, ← spelled, whole, tagged] at scanned
    exact ⟨not_isBlank_of_isLetter (letters head List.mem_cons_self), scanned⟩
  cases forms with
  | keyword letters spelled reserved =>
    have present : ∀ entry ∈ keywords, bytesOf entry.1 ≠ [] := by decide
    obtain ⟨head, tail, rfl⟩ := List.exists_cons_of_ne_nil (spelled ▸ present _ reserved)
    exact ⟨head, tail, rfl, word rfl letters spelled (wordTag_of_mem reserved)⟩
  | name present letters spelled free tagged =>
    obtain ⟨head, tail, rfl⟩ := List.exists_cons_of_ne_nil present
    exact ⟨head, tail, rfl, word rfl letters spelled ((wordTag_of_not_mem free).trans tagged.symm)⟩
  | number present digits spelled tagged =>
    obtain ⟨head, tail, rfl⟩ := List.exists_cons_of_ne_nil present
    have whole := spelling_bytesOf fun byte member =>
      ascii_of_isDigit (digits byte (spelled ▸ member))
    have scanned : lexeme head (tail ++ []) = _ := lexeme_of_digits digits nofun
    rw [List.append_nil, ← spelled, whole, ← tagged] at scanned
    exact ⟨head, tail, rfl, not_isBlank_of_isDigit (digits head List.mem_cons_self), scanned⟩
  | equal => exact ⟨_, _, rfl, rfl, rfl⟩
  | notEqual => exact ⟨_, _, rfl, rfl, rfl⟩
  | sign known =>
    obtain ⟨byte, bytes, _, _, blank, scanned⟩ := byte_of_sign known
    exact ⟨byte, [], bytes, blank, scanned⟩
  | @foreign byte token outside ascii spelled tagged =>
    unfold InAlphabet at outside
    simp only [not_or, Bool.not_eq_true] at outside
    obtain ⟨blank, letter, digit, unknown⟩ := outside
    refine ⟨byte, [], rfl, blank, ?_⟩
    have shown : token.text = spelling [byte] := bytesOf_injective
      (spelled.trans (bytesOf_spelling (by simpa using ascii)).symm)
    have unsigned : signTag (character byte) = .illegal := by
      obtain known | ⟨_, illegal⟩ := getD_lookup_cases signs .illegal (character byte)
      · have single : String.singleton (character byte) = token.text :=
          String.singleton_eq_ofList.trans shown.symm
        exact absurd ⟨_, known, single ▸ spelled⟩ unknown
      · exact illegal
    rw [lexeme_of_single letter digit fun _ => by simp, unsigned, ← shown, ← tagged]
  | @beyond byte high =>
    have low : ¬ byte < 0x80 := UInt8.not_lt.mpr high
    have letter : isLetter byte = false :=
      Bool.eq_false_iff.mpr fun letter => low (ascii_of_isLetter letter)
    have digit : isDigit byte = false :=
      Bool.eq_false_iff.mpr fun digit => low (ascii_of_isDigit digit)
    have shown : character byte = '\uFFFD' := if_neg low
    refine ⟨byte, [], rfl, ?_, ?_⟩
    · simp only [isBlank, Bool.or_eq_false_iff, beq_eq_false_iff_ne, ne_eq,
        UInt8.le_iff_toNat_le, ← UInt8.toNat_inj, UInt8.reduceToNat] at high ⊢
      omega
    · rw [lexeme_of_single letter digit fun _ => by simp, spelling, List.map_singleton, shown]
      rfl

/-! ### The longest token -/

/-- Where scanning takes all of some bytes, it takes no less when more bytes follow. -/
theorem length_lexeme_append_le {head : UInt8} {tail : List UInt8}
    (whole : (lexeme head tail).2 = []) (more : List UInt8) :
    (lexeme head (tail ++ more)).2.length ≤ more.length := by
  unfold lexeme at whole ⊢
  by_cases letter : isLetter head
  · rw [if_pos letter] at whole ⊢
    rw [List.dropWhile_append_of_pos (List.dropWhile_eq_nil_iff.mp whole)]
    exact (List.dropWhile_sublist isLetter).length_le
  rw [if_neg letter] at whole ⊢
  by_cases digit : isDigit head
  · rw [if_pos digit] at whole ⊢
    rw [List.dropWhile_append_of_pos (List.dropWhile_eq_nil_iff.mp whole)]
    exact (List.dropWhile_sublist isDigit).length_le
  rw [if_neg digit] at whole ⊢
  cases tail with
  | nil => split <;> [simp; (split <;> simp)]
  | cons second others =>
    -- A double sign is whole, and nothing else of two bytes is.
    have double : ∀ {sign : UInt8}, head = sign ∧ (second :: others).head? = some equalsSign →
        head = sign ∧ (second :: others ++ more).head? = some equalsSign :=
      fun both => ⟨both.1, by simpa using both.2⟩
    split at whole
    · rename_i both
      rw [if_pos (double both)]
      simp_all
    · split at whole
      · rename_i other both
        rw [if_neg (by simpa using other), if_pos (double both)]
        simp_all
      · simp at whole

/-- A word forms the token with the tag that it has. -/
theorem forms_word {span : List UInt8} (present : span ≠ [])
    (letters : ∀ byte ∈ span, isLetter byte) :
    Forms span ⟨wordTag (spelling span), spelling span⟩ := by
  have spelled : bytesOf (spelling span) = span :=
    bytesOf_spelling fun byte member => ascii_of_isLetter (letters byte member)
  obtain reserved | ⟨free, tagged⟩ := getD_lookup_cases keywords .identifier (spelling span)
  · exact .keyword letters spelled reserved
  · exact .name present letters spelled free tagged

/-- A single byte in no other class forms a sign or is illegal. -/
theorem forms_single {byte : UInt8} (blank : isBlank byte = false) (letter : ¬ isLetter byte)
    (digit : ¬ isDigit byte) : Forms [byte] ⟨signTag (character byte), spelling [byte]⟩ := by
  have single : spelling [byte] = String.singleton (character byte) :=
    String.singleton_eq_ofList.symm
  by_cases ascii : byte < 0x80
  · have spelled : bytesOf (spelling [byte]) = [byte] := bytesOf_spelling (by simpa using ascii)
    obtain known | ⟨unknown, tagged⟩ := getD_lookup_cases signs .illegal (character byte)
    · have formed := Forms.sign known
      rw [← single, spelled] at formed
      exact formed
    · refine .foreign ?_ ascii spelled tagged
      rintro (blank' | letter' | digit' | ⟨⟨mark, tag⟩, known, same⟩)
      · rw [blank] at blank'
        cases blank'
      · exact letter letter'
      · exact digit digit'
      · have marked : spelling [byte] = String.singleton mark :=
          bytesOf_injective (spelled.trans same.symm)
        rw [single, String.singleton_inj] at marked
        exact unknown (marked ▸ List.mem_map_of_mem known)
  · have shown : character byte = '\uFFFD' := if_neg ascii
    rw [single, shown]
    exact .beyond (UInt8.not_lt.mp ascii)

/-- What is scanned at the start of some bytes is formed by what was taken of them. -/
theorem forms_lexeme {head : UInt8} (rest : List UInt8) (solid : isBlank head = false) :
    ∃ span, head :: rest = span ++ (lexeme head rest).2 ∧ Forms span (lexeme head rest).1 := by
  unfold lexeme
  by_cases letter : isLetter head
  · rw [if_pos letter]
    refine ⟨head :: rest.takeWhile isLetter, by simp, forms_word (List.cons_ne_nil _ _) ?_⟩
    exact List.forall_mem_cons.mpr ⟨letter, fun byte member => List.mem_takeWhile_imp member⟩
  rw [if_neg letter]
  by_cases digit : isDigit head
  · have digits : ∀ byte ∈ head :: rest.takeWhile isDigit, isDigit byte :=
      List.forall_mem_cons.mpr ⟨digit, fun byte member => List.mem_takeWhile_imp member⟩
    rw [if_pos digit]
    refine ⟨head :: rest.takeWhile isDigit, by simp, .number (List.cons_ne_nil _ _) digits ?_ rfl⟩
    exact bytesOf_spelling fun byte member => ascii_of_isDigit (digits byte member)
  rw [if_neg digit]
  split
  · rename_i both
    obtain ⟨rfl, next⟩ := both
    obtain ⟨others, rfl⟩ := List.head?_eq_some_iff.mp next
    exact ⟨[equalsSign, equalsSign], rfl, .equal⟩
  split
  · rename_i both
    obtain ⟨rfl, next⟩ := both
    obtain ⟨others, rfl⟩ := List.head?_eq_some_iff.mp next
    exact ⟨[bangSign, equalsSign], rfl, .notEqual⟩
  · exact ⟨[head], rfl, forms_single solid letter digit⟩

/-- The token that is scanned at the start of some bytes is the longest one there. -/
theorem longest_lexeme {head : UInt8} (rest : List UInt8) (solid : isBlank head = false) :
    ∃ span, head :: rest = span ++ (lexeme head rest).2 ∧
      Longest span (lexeme head rest).1 (lexeme head rest).2 := by
  obtain ⟨span, split, forms⟩ := forms_lexeme rest solid
  refine ⟨span, split, forms, fun other formed within formsOther => ?_⟩
  obtain ⟨first, tail, rfl, _, scanned⟩ := formsOther.scanned
  rw [← split] at within
  obtain ⟨more, joined⟩ := within
  rw [List.cons_append, List.cons.injEq] at joined
  obtain ⟨rfl, rfl⟩ := joined
  have taken := length_lexeme_append_le (congrArg Prod.snd scanned) more
  have total := congrArg List.length split
  simp only [List.length_cons, List.length_append] at total ⊢
  omega

/-- Of two longest tokens at the start of the same bytes, neither is longer. -/
theorem Longest.unique {span span' rest rest' : List UInt8} {token token' : Token}
    (longest : Longest span token rest) (longest' : Longest span' token' rest')
    (same : span ++ rest = span' ++ rest') : span = span' ∧ token = token' ∧ rest = rest' := by
  have lengths : span.length = span'.length := Nat.le_antisymm
    (longest'.longest span token (same ▸ List.prefix_append span rest) longest.forms)
    (longest.longest span' token' (same ▸ List.prefix_append span' rest') longest'.forms)
  obtain ⟨rfl, rfl⟩ := List.append_inj same lengths
  obtain ⟨head, tail, rfl, _, scanned⟩ := longest.forms.scanned
  obtain ⟨_, _, alike, _, scanned'⟩ := longest'.forms.scanned
  obtain ⟨rfl, rfl⟩ := List.cons.inj alike
  rw [scanned, Prod.mk.injEq] at scanned'
  exact ⟨rfl, scanned'.1, rfl⟩

/-- The longest token at the start of some bytes is the one that is scanned there. -/
theorem Longest.scanned {span rest : List UInt8} {token : Token}
    (longest : Longest span token rest) :
    ∃ head tail, span = head :: tail ∧ isBlank head = false ∧
      lexeme head (tail ++ rest) = (token, rest) := by
  obtain ⟨head, tail, rfl, solid, _⟩ := longest.forms.scanned
  obtain ⟨span, split, taken⟩ := longest_lexeme (tail ++ rest) solid
  obtain ⟨_, sameToken, sameRest⟩ := longest.unique taken split
  exact ⟨head, tail, rfl, solid, Prod.ext sameToken.symm sameRest.symm⟩

/-- What is scanned at the start of some bytes is the longest token there. -/
theorem longest_of_scanned {head : UInt8} {tail rest : List UInt8} {token : Token}
    (solid : isBlank head = false) (scanned : lexeme head (tail ++ rest) = (token, rest)) :
    Longest (head :: tail) token rest := by
  obtain ⟨span, split, longest⟩ := longest_lexeme (tail ++ rest) solid
  rw [scanned] at split longest
  rw [← List.cons_append, List.append_left_inj] at split
  exact split ▸ longest

end Monkey.Token
