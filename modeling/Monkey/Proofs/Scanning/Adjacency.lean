/-
This file is about texts that stand right next to each other. Whether a text ends
its last token depends on the byte after it: a word must not be followed by a
letter, a number not by a digit, and a single equals sign or exclamation mark not
by an equals sign. Under these conditions each kind of token is laid out as
itself, and a longer text is laid out piece by piece.
-/

import Monkey.Proofs.Scanning.Separation

namespace Monkey.Token

/-- Before these bytes, the text is laid out as the tokens. -/
def LaidOut (text : String) (tokens : List Token) (rest : List UInt8) : Prop :=
  ∀ others, Layout rest others → Layout (bytesOf text ++ rest) (tokens ++ others)

/-- The bytes go on with neither a letter nor a digit. -/
def Edge (rest : List UInt8) : Prop :=
  ∀ byte ∈ rest.head?, isLetter byte = false ∧ isDigit byte = false

instance (rest : List UInt8) : Decidable (Edge rest) :=
  match rest with
  | [] => isTrue nofun
  | byte :: _ => decidable_of_iff (isLetter byte = false ∧ isDigit byte = false) (by simp [Edge])

theorem edge_nil : Edge [] :=
  fun _ member => nomatch member

/-- A text that begins with a sign or a blank is an edge for what stands before it. -/
theorem edge_append {text : String} (edge : Edge (bytesOf text)) (present : bytesOf text ≠ [])
    (rest : List UInt8) : Edge (bytesOf text ++ rest) := by
  unfold Edge at edge ⊢
  rwa [List.head?_append_of_ne_nil _ present]

/-! ### Pieces -/

theorem LaidOut.empty (rest : List UInt8) : LaidOut "" [] rest :=
  fun _ layout => layout

theorem LaidOut.append {first second : String} {tokens others : List Token} {rest : List UInt8}
    (left : LaidOut first tokens (bytesOf second ++ rest)) (right : LaidOut second others rest) :
    LaidOut (first ++ second) (tokens ++ others) rest := by
  intro after layout
  rw [bytesOf_append, List.append_assoc, List.append_assoc]
  exact left _ (right _ layout)

theorem laidOut_space (rest : List UInt8) : LaidOut " " [] rest :=
  fun _ layout => layout.of_blanks (List.all_eq_true.mp (by decide))

/-- A text that is scanned as one token at the start of some bytes. -/
theorem laidOut_of_scanned {text : String} {head : UInt8} {tail rest : List UInt8} {token : Token}
    (bytes : bytesOf text = head :: tail) (solid : isBlank head = false)
    (scanned : lexeme head (tail ++ rest) = (token, rest)) : LaidOut text [token] rest := by
  intro others layout
  have none : ∀ byte ∈ ([] : List UInt8), isBlank byte := List.forall_mem_nil _
  rw [bytes]
  exact Layout.token none (longest_of_scanned solid scanned) layout

/-! ### Words and numbers -/

/-- A text without blanks that is scanned as one token, before some bytes. -/
theorem laidOut_of_lexeme {text : String} {token : Token} {rest : List UInt8} (present : text ≠ "")
    (solid : ∀ byte ∈ bytesOf text, isBlank byte = false)
    (scanned : ∀ head tail, bytesOf text = head :: tail →
      lexeme head (tail ++ rest) = (token, rest)) : LaidOut text [token] rest := by
  have some : bytesOf text ≠ [] := fun nothing => present (bytesOf_injective nothing)
  obtain ⟨head, tail, bytes⟩ := List.exists_cons_of_ne_nil some
  rw [bytes] at solid
  exact laidOut_of_scanned bytes (solid head List.mem_cons_self) (scanned head tail bytes)

theorem laidOut_word {word : String} (present : word ≠ "")
    (letters : ∀ byte ∈ bytesOf word, isLetter byte) {rest : List UInt8} (edge : Edge rest) :
    LaidOut word [⟨wordTag word, word⟩] rest := by
  refine laidOut_of_lexeme present
    (fun byte member => not_isBlank_of_isLetter (letters byte member)) fun head tail bytes => ?_
  have whole := spelling_bytesOf fun byte member => ascii_of_isLetter (letters byte member)
  rw [bytes] at letters whole
  have scanned := lexeme_of_letters letters fun byte member => (edge byte member).1
  rwa [whole] at scanned

theorem laidOut_number {text : String} (present : text ≠ "")
    (digits : ∀ byte ∈ bytesOf text, isDigit byte) {rest : List UInt8} (edge : Edge rest) :
    LaidOut text [⟨.integer, text⟩] rest := by
  refine laidOut_of_lexeme present
    (fun byte member => not_isBlank_of_isDigit (digits byte member)) fun head tail bytes => ?_
  have whole := spelling_bytesOf fun byte member => ascii_of_isDigit (digits byte member)
  rw [bytes] at digits whole
  have scanned := lexeme_of_digits digits fun byte member => (edge byte member).2
  rwa [whole] at scanned

/-! ### Signs -/

/-- A sign is laid out as itself, unless it joins an equals sign after it. -/
theorem laidOut_sign {mark : Char} {tag : Tag} (known : (mark, tag) ∈ signs) {rest : List UInt8}
    (single : tag = .assign ∨ tag = .bang → rest.head? ≠ some equalsSign) :
    LaidOut (String.singleton mark) [⟨tag, String.singleton mark⟩] rest := by
  obtain ⟨byte, bytes, letter, digit, blank, scanned⟩ := byte_of_sign known
  have alone : lexeme byte [] = (⟨signTag (character byte), spelling [byte]⟩, []) :=
    lexeme_of_single letter digit fun _ => nofun
  have same : (⟨tag, String.singleton mark⟩ : Token) =
      ⟨signTag (character byte), spelling [byte]⟩ := congrArg Prod.fst (scanned.symm.trans alone)
  have joins : byte = equalsSign ∨ byte = bangSign → tag = .assign ∨ tag = .bang := by
    have tagged : tag = signTag (character byte) := congrArg Token.tag same
    rintro (rfl | rfl)
    · exact .inl tagged
    · exact .inr tagged
  have taken : lexeme byte ([] ++ rest) = (⟨tag, String.singleton mark⟩, rest) := by
    rw [same, List.nil_append]
    exact lexeme_of_single letter digit fun doubled => single (joins doubled)
  exact laidOut_of_scanned bytes blank taken

theorem laidOut_equal (rest : List UInt8) : LaidOut "==" [⟨.equal, "=="⟩] rest := by
  have bytes : bytesOf "==" = equalsSign :: [equalsSign] := by decide
  exact laidOut_of_scanned bytes rfl rfl

theorem laidOut_notEqual (rest : List UInt8) : LaidOut "!=" [⟨.notEqual, "!="⟩] rest := by
  have bytes : bytesOf "!=" = bangSign :: [equalsSign] := by decide
  exact laidOut_of_scanned bytes rfl rfl

end Monkey.Token
