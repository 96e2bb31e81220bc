/-
This file says how a source is laid out: blanks, then the longest token, and so
on up to blanks at the end. Every source is laid out in exactly one way, and its
tokens are those that scanning gives, so a layout is all that has to be shown of
a text to know its tokens.

Asked for one token after the other, scanning gives the tokens of the layout and
then the end of the input for ever.
-/

import Monkey.Proofs.Scanning.Longest

namespace Monkey.Token

/-- The bytes are blanks and the tokens in turn, each token being the longest one where it
starts. -/
inductive Layout : List UInt8 → List Token → Prop
  | ended {blanks : List UInt8} (blank : ∀ byte ∈ blanks, isBlank byte) : Layout blanks []
  | token {blanks span rest : List UInt8} {token : Token} {tokens : List Token}
      (blank : ∀ byte ∈ blanks, isBlank byte) (longest : Longest span token rest)
      (others : Layout rest tokens) : Layout (blanks ++ (span ++ rest)) (token :: tokens)

/-! ### Scanning after blanks -/

theorem scanBytes_of_blank {bytes : List UInt8} (blank : ∀ byte ∈ bytes, isBlank byte) :
    scanBytes bytes = [] := by
  have nothing := List.dropWhile_eq_nil_iff.mpr blank
  rw [scanBytes]
  split
  · rfl
  · rename_i found
    rw [nothing] at found
    cases found

theorem scanBytes_of_solid {bytes rest : List UInt8} {head : UInt8}
    (solid : bytes.dropWhile isBlank = head :: rest) :
    scanBytes bytes = (lexeme head rest).1 :: scanBytes (lexeme head rest).2 := by
  rw [scanBytes]
  split
  · rename_i nothing
    rw [solid] at nothing
    cases nothing
  · rename_i found
    rw [solid, List.cons.injEq] at found
    obtain ⟨rfl, rfl⟩ := found
    rfl

theorem dropWhile_isBlank_append {blanks : List UInt8} (blank : ∀ byte ∈ blanks, isBlank byte)
    {head : UInt8} (solid : isBlank head = false) (rest : List UInt8) :
    (blanks ++ head :: rest).dropWhile isBlank = head :: rest := by
  rw [List.dropWhile_append_of_pos blank, List.dropWhile_cons_of_neg (Bool.eq_false_iff.mp solid)]

/-! ### The layout of a source -/

/-- Scanning gives the tokens of any layout. -/
theorem Layout.scanned {bytes : List UInt8} {tokens : List Token} (layout : Layout bytes tokens) :
    scanBytes bytes = tokens := by
  induction layout with
  | ended blank => exact scanBytes_of_blank blank
  | token blank longest _ inductionHypothesis =>
    obtain ⟨head, tail, rfl, solid, scanned⟩ := longest.scanned
    rw [List.cons_append, scanBytes_of_solid (dropWhile_isBlank_append blank solid _), scanned,
      inductionHypothesis]

/-- Every source has a layout. -/
theorem layout_scanBytes (bytes : List UInt8) : Layout bytes (scanBytes bytes) := by
  induction bytes using scanBytes.induct with
  | case1 bytes nothing =>
    have blank := List.dropWhile_eq_nil_iff.mp nothing
    rw [scanBytes_of_blank blank]
    exact .ended blank
  | case2 bytes head rest found inductionHypothesis =>
    have solid : isBlank head = false := by
      have stopped := List.head?_dropWhile_not isBlank bytes
      rw [found] at stopped
      exact stopped
    obtain ⟨span, split, longest⟩ := longest_lexeme rest solid
    rw [scanBytes_of_solid found, ← List.takeWhile_append_dropWhile (p := isBlank) (l := bytes),
      found, split]
    exact .token (fun byte member => List.mem_takeWhile_imp member) longest inductionHypothesis

/-- Some tokens are those of a source exactly if the source is laid out as them. -/
theorem scanBytes_eq_iff (bytes : List UInt8) (tokens : List Token) :
    scanBytes bytes = tokens ↔ Layout bytes tokens :=
  ⟨fun same => same ▸ layout_scanBytes bytes, Layout.scanned⟩

/-! ### One token after the other -/

theorem answers_nil (count : Nat) : answers count [] = List.replicate count endOfInput := by
  induction count with
  | zero => rfl
  | succ count inductionHypothesis => exact congrArg (endOfInput :: ·) inductionHypothesis

/-- Scanning answers with the tokens and then with the end of the input, however often it is
asked. -/
theorem answers_eq (count : Nat) (bytes : List UInt8) :
    answers count bytes = (scanBytes bytes ++ List.replicate count endOfInput).take count := by
  induction count generalizing bytes with
  | zero => rfl
  | succ count inductionHypothesis =>
    rw [answers, next]
    split
    · rename_i nothing
      rw [scanBytes_of_blank (List.dropWhile_eq_nil_iff.mp nothing), answers_nil]
      simp [List.replicate_succ]
    · rename_i head rest found
      have enough : count ≤
          (scanBytes (lexeme head rest).2 ++ List.replicate count endOfInput).length := by simp
      rw [scanBytes_of_solid found, inductionHypothesis]
      rw [List.replicate_succ', ← List.append_assoc, List.cons_append, List.cons_append,
        List.take_succ_cons, List.take_append_of_le_length enough]

end Monkey.Token
