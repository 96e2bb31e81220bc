/-
This file is about sources with blanks between their parts. A blank belongs to no
token, so the tokens on its two sides are found as they are without the other
side. A token that is not illegal can be written out as its text, and a list of
such tokens is scanned back from their texts with spaces after them.
-/

import Monkey.Proofs.Scanning.Layout

namespace Monkey.Token

/-! ### Blanks between tokens -/

theorem Forms.solid {span : List UInt8} {token : Token} (forms : Forms span token) :
    ∀ byte ∈ span, isBlank byte = false := by
  have single : ∀ {byte : UInt8}, Forms [byte] token → isBlank byte = false := by
    intro byte forms
    obtain ⟨head, tail, same, solid, _⟩ := forms.scanned
    obtain ⟨rfl, rfl⟩ := List.cons.inj same
    exact solid
  have clear : ∀ {bytes : List UInt8}, bytes.any isBlank = false →
      ∀ byte ∈ bytes, isBlank byte = false :=
    fun no byte member => Bool.eq_false_iff.mpr (List.any_eq_false.mp no byte member)
  have forms' := forms
  cases forms with
  | keyword letters _ _ => exact fun byte member => not_isBlank_of_isLetter (letters byte member)
  | name _ letters _ _ _ => exact fun byte member => not_isBlank_of_isLetter (letters byte member)
  | number _ digits _ _ => exact fun byte member => not_isBlank_of_isDigit (digits byte member)
  | equal => exact clear (by decide)
  | notEqual => exact clear (by decide)
  | sign known =>
    obtain ⟨byte, bytes, _, _, blank, _⟩ := byte_of_sign known
    rw [bytes]
    simpa using blank
  | foreign _ _ _ _ => simpa using single forms'
  | beyond _ => simpa using single forms'

/-- A token that is the longest one stays so if a blank and more bytes follow. -/
theorem Longest.append_blank {span rest : List UInt8} {token : Token}
    (longest : Longest span token rest) {separator : UInt8} (blank : isBlank separator)
    (more : List UInt8) : Longest span token (rest ++ separator :: more) := by
  refine ⟨longest.forms, fun other formed within forms => longest.longest other formed ?_ forms⟩
  rw [← List.append_assoc] at within
  by_cases short : other.length ≤ (span ++ rest).length
  · exact List.prefix_of_prefix_length_le within (List.prefix_append _ _) short
  · -- A longer run of bytes would hold the blank, which no token does.
    have reaches : span ++ rest ++ [separator] <+: other := by
      refine List.prefix_of_prefix_length_le ?_ within ?_
      · exact ⟨more, by rw [List.append_assoc, List.singleton_append]⟩
      · rw [List.length_append, List.length_singleton]
        omega
    have solid := forms.solid separator (reaches.subset (by simp))
    rw [blank] at solid
    cases solid

/-- Blanks in front of a source add no token. -/
theorem Layout.of_blanks {blanks bytes : List UInt8} {tokens : List Token}
    (blank : ∀ byte ∈ blanks, isBlank byte) (layout : Layout bytes tokens) :
    Layout (blanks ++ bytes) tokens := by
  cases layout with
  | ended others => exact .ended (List.forall_mem_append.mpr ⟨blank, others⟩)
  | token others longest rest =>
    rw [← List.append_assoc]
    exact .token (List.forall_mem_append.mpr ⟨blank, others⟩) longest rest

/-- With a blank between them, two sources have the tokens of the first and then those of the
second. -/
theorem Layout.append {first second : List UInt8} {tokens others : List Token}
    (layout : Layout first tokens) {separator : UInt8} (blank : isBlank separator)
    (after : Layout second others) :
    Layout (first ++ separator :: second) (tokens ++ others) := by
  induction layout with
  | ended blanks =>
    rw [← List.singleton_append, ← List.append_assoc]
    exact after.of_blanks (List.forall_mem_append.mpr ⟨blanks, by simpa using blank⟩)
  | token blanks longest _ inductionHypothesis =>
    rw [List.append_assoc, List.append_assoc]
    exact .token blanks (longest.append_blank blank second) inductionHypothesis

/-- The tokens of two texts with a blank between them are those of the two. -/
theorem scan_separated {separator : UInt8} (blank : isBlank separator) (first second : String) :
    scan (first ++ spelling [separator] ++ second) = scan first ++ scan second := by
  have alone : bytesOf (spelling [separator]) = [separator] :=
    bytesOf_spelling (List.forall_mem_singleton.mpr (ascii_of_isBlank blank))
  unfold scan
  rw [bytesOf_append, bytesOf_append, alone, List.append_assoc, List.singleton_append]
  exact ((layout_scanBytes _).append blank (layout_scanBytes _)).scanned

/-! ### Tokens written out -/

/-- A token that is not illegal has the text that it was made of. -/
theorem Forms.spelled {span : List UInt8} {token : Token} (forms : Forms span token)
    (legal : token.tag ≠ .illegal) : bytesOf token.text = span := by
  cases forms with
  | keyword _ spelled _ => exact spelled
  | name _ _ spelled _ _ => exact spelled
  | number _ _ spelled _ => exact spelled
  | equal => decide
  | notEqual => decide
  | sign _ => rfl
  | foreign _ _ spelled _ => exact spelled
  | beyond _ => exact absurd rfl legal

/-- A token that is not illegal is made of bytes that scanning knows. -/
theorem Forms.inAlphabet {span : List UInt8} {token : Token} (forms : Forms span token)
    (legal : token.tag ≠ .illegal) : ∀ byte ∈ span, InAlphabet byte := by
  have equals : InAlphabet equalsSign := .inr (.inr (.inr ⟨('=', .assign), by decide, rfl⟩))
  have bang : InAlphabet bangSign := .inr (.inr (.inr ⟨('!', .bang), by decide, rfl⟩))
  cases forms with
  | keyword letters _ _ => exact fun byte member => .inr (.inl (letters byte member))
  | name _ letters _ _ _ => exact fun byte member => .inr (.inl (letters byte member))
  | number _ digits _ _ => exact fun byte member => .inr (.inr (.inl (digits byte member)))
  | equal => simpa using equals
  | notEqual => simpa using ⟨bang, equals⟩
  | sign known =>
    obtain ⟨byte, bytes, _⟩ := byte_of_sign known
    rw [bytes]
    exact List.forall_mem_singleton.mpr (.inr (.inr (.inr ⟨_, known, bytes⟩)))
  | foreign _ _ _ tagged => exact absurd tagged legal
  | beyond _ => exact absurd rfl legal

/-- A source without illegal tokens is made of bytes that scanning knows. -/
theorem Layout.inAlphabet {bytes : List UInt8} {tokens : List Token} (layout : Layout bytes tokens)
    (legal : ∀ token ∈ tokens, token.tag ≠ .illegal) : ∀ byte ∈ bytes, InAlphabet byte := by
  induction layout with
  | ended blank => exact fun byte member => .inl (blank byte member)
  | token blank longest _ inductionHypothesis =>
    obtain ⟨here, there⟩ := List.forall_mem_cons.mp legal
    refine List.forall_mem_append.mpr ⟨fun byte member => .inl (blank byte member), ?_⟩
    exact List.forall_mem_append.mpr ⟨longest.forms.inAlphabet here, inductionHypothesis there⟩

/-- The text of the token forms the token. -/
def Written (token : Token) : Prop :=
  Forms (bytesOf token.text) token

theorem Layout.written {bytes : List UInt8} {tokens : List Token} (layout : Layout bytes tokens) :
    ∀ token ∈ tokens, token.tag ≠ .illegal → Written token := by
  induction layout with
  | ended _ => exact fun token member => nomatch member
  | token _ longest _ inductionHypothesis =>
    refine List.forall_mem_cons.mpr ⟨fun legal => ?_, inductionHypothesis⟩
    unfold Written
    rw [longest.forms.spelled legal]
    exact longest.forms

/-- The texts of some tokens, with a space after each. -/
def spaced : List Token → String
  | [] => ""
  | token :: rest => token.text ++ (" " ++ spaced rest)

/-- Tokens that are written out with spaces are scanned back. -/
theorem scan_spaced {tokens : List Token} (written : ∀ token ∈ tokens, Written token) :
    scan (spaced tokens) = tokens := by
  have layout : Layout (bytesOf (spaced tokens)) tokens := by
    induction tokens with
    | nil => exact .ended fun byte member => nomatch member
    | cons token rest inductionHypothesis =>
      obtain ⟨here, there⟩ := List.forall_mem_cons.mp written
      have alone : Layout ([] ++ (bytesOf token.text ++ [])) [token] :=
        .token (fun byte member => nomatch member)
          ⟨here, fun other _ within _ => by simpa using within.length_le⟩
          (.ended fun byte member => nomatch member)
      rw [List.append_nil, List.nil_append] at alone
      rw [spaced, bytesOf_append, bytesOf_append]
      exact alone.append rfl (inductionHypothesis there)
  exact layout.scanned

end Monkey.Token
