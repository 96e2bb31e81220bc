/-
This file counts parentheses and braces in derivations. Parentheses always come
in pairs. Braces do too, except that the end of the input may close blocks, so a
derivation may take more opening braces than closing ones, and never fewer.

No expression ends in a semicolon by itself. One that does ends in a block whose
last statement has the semicolon, and that block is closed by the end of the
input. So where braces are in pairs, a semicolon at the end belongs to a
statement outside of all blocks.
-/

import Monkey.Proofs.Grammar.Layers

namespace Monkey

namespace Token

/-! ### Tallies -/

/-- How many of some tokens have the tag. -/
def tally (tag : Tag) (tokens : List Token) : Nat :=
  tokens.countP fun token => token.tag = tag

/-- The last of some tokens has the tag. -/
def EndsIn (tag : Tag) (tokens : List Token) : Prop :=
  tokens.getLast?.map Token.tag = some tag

instance (tag : Tag) (tokens : List Token) : Decidable (EndsIn tag tokens) :=
  inferInstanceAs (Decidable (tokens.getLast?.map Token.tag = some tag))

variable {tag : Tag} {first second : List Token}

@[simp] theorem tally_nil : tally tag [] = 0 :=
  rfl

theorem tally_append : tally tag (first ++ second) = tally tag first + tally tag second :=
  List.countP_append

theorem tally_cons (token : Token) :
    tally tag (token :: first) = tally tag first + if token.tag = tag then 1 else 0 := by
  simp [tally, List.countP_cons]

theorem endsIn_append (some : second ≠ []) : EndsIn tag (first ++ second) ↔ EndsIn tag second := by
  unfold EndsIn
  obtain ⟨last, found⟩ := Option.ne_none_iff_exists'.mp (mt List.getLast?_eq_none_iff.mp some)
  rw [List.getLast?_append, found, Option.some_or]

theorem endsIn_cons (token : Token) (some : first ≠ []) :
    EndsIn tag (token :: first) ↔ EndsIn tag first := by
  rw [← List.singleton_append]
  exact endsIn_append some

theorem endsIn_singleton {token : Token} : EndsIn tag [token] ↔ token.tag = tag := by
  simp [EndsIn]

end Token

namespace Grammar

open Token (tally EndsIn)

/-! ### Nesting -/

/-- Parentheses come in pairs, and no more braces are closed than were opened. -/
structure Nested (taken : List Token) : Prop where
  parentheses : tally .leftParen taken = tally .rightParen taken
  braces : tally .rightBrace taken ≤ tally .leftBrace taken

/-- Tokens, at least one, that are nested; a semicolon at their end stands in a block that is left
open. -/
structure Sealed (taken : List Token) : Prop extends Nested taken where
  some : taken ≠ []
  semicolon : EndsIn .semicolon taken → tally .rightBrace taken < tally .leftBrace taken

/-- The tags of parentheses and braces. -/
def brackets : List Tag :=
  [.leftParen, .rightParen, .leftBrace, .rightBrace]

variable {first second taken inner : List Token} {token opening closing : Token}

namespace Nested

theorem nil : Nested [] :=
  ⟨rfl, Nat.le_refl _⟩

theorem append (one : Nested first) (other : Nested second) : Nested (first ++ second) where
  parentheses := by
    rw [Token.tally_append, Token.tally_append, one.parentheses, other.parentheses]
  braces := by
    rw [Token.tally_append, Token.tally_append]
    exact Nat.add_le_add one.braces other.braces

theorem single (plain : token.tag ∉ brackets) : Nested [token] := by
  simp only [brackets, List.mem_cons, List.not_mem_nil, or_false, not_or] at plain
  constructor <;> simp [tally, plain]

end Nested

namespace Sealed

theorem append (one : Nested first) (other : Sealed second) : Sealed (first ++ second) where
  toNested := one.append other.toNested
  some := List.append_ne_nil_of_right_ne_nil _ other.some
  semicolon ends := by
    have within := other.semicolon ((Token.endsIn_append other.some).mp ends)
    have := one.braces
    rw [Token.tally_append, Token.tally_append]
    omega

theorem single (plain : token.tag ∉ .semicolon :: brackets) : Sealed [token] where
  toNested := .single (List.not_mem_of_not_mem_cons plain)
  some := List.cons_ne_nil _ _
  semicolon ends := by
    rw [Token.endsIn_singleton.mp ends] at plain
    exact absurd List.mem_cons_self plain

/-- Nested tokens in parentheses. -/
theorem parenthesized (opens : opening.tag = .leftParen) (nested : Nested inner)
    (closes : closing.tag = .rightParen) : Sealed (opening :: (inner ++ [closing])) where
  parentheses := by
    simp [Token.tally_cons, Token.tally_append, opens, closes, nested.parentheses]
  braces := by
    simpa [Token.tally_cons, Token.tally_append, opens, closes] using nested.braces
  some := List.cons_ne_nil _ _
  semicolon ends := by
    rw [← List.cons_append, Token.endsIn_append (List.cons_ne_nil _ _), Token.endsIn_singleton,
      closes] at ends
    cases ends

/-- Nested tokens in braces. -/
theorem braced (opens : opening.tag = .leftBrace) (nested : Nested inner)
    (closes : closing.tag = .rightBrace) : Sealed (opening :: (inner ++ [closing])) where
  parentheses := by
    simpa [Token.tally_cons, Token.tally_append, opens, closes] using nested.parentheses
  braces := by
    simpa [Token.tally_cons, Token.tally_append, opens, closes] using nested.braces
  some := List.cons_ne_nil _ _
  semicolon ends := by
    rw [← List.cons_append, Token.endsIn_append (List.cons_ne_nil _ _), Token.endsIn_singleton,
      closes] at ends
    cases ends

/-- Nested tokens after a brace that is left open. -/
theorem unclosed (opens : opening.tag = .leftBrace) (nested : Nested inner) :
    Sealed (opening :: inner) := by
  have opened : tally .rightBrace (opening :: inner) < tally .leftBrace (opening :: inner) := by
    have := nested.braces
    simp only [Token.tally_cons, opens, if_true, reduceCtorEq, if_false]
    omega
  refine ⟨⟨?_, Nat.le_of_lt opened⟩, List.cons_ne_nil _ _, fun _ => opened⟩
  simpa [Token.tally_cons, opens] using nested.parentheses

end Sealed

/-! ### Between tokens and a rest -/

/-- What stands between the tokens and the rest has the property. -/
def Spans (Holds : List Token → Prop) (tokens rest : List Token) : Prop :=
  ∃ taken, tokens = taken ++ rest ∧ Holds taken

namespace Spans

variable {tokens middle rest : List Token} {One Other Whole : List Token → Prop}

theorem nested (spans : Spans Sealed tokens rest) : Spans Nested tokens rest := by
  obtain ⟨taken, rfl, whole⟩ := spans
  exact ⟨taken, rfl, whole.toNested⟩

theorem join (one : Spans One tokens middle) (other : Spans Other middle rest)
    (both : ∀ {first second}, One first → Other second → Whole (first ++ second)) :
    Spans Whole tokens rest := by
  obtain ⟨first, rfl, held⟩ := one
  obtain ⟨second, rfl, next⟩ := other
  exact ⟨first ++ second, (List.append_assoc _ _ _).symm, both held next⟩

/-- Whatever nested stands before sealed tokens. -/
theorem before (one : Spans Nested tokens middle) (other : Spans Sealed middle rest) :
    Spans Sealed tokens rest :=
  one.join other .append

theorem single (plain : token.tag ∉ .semicolon :: brackets) :
    Spans Sealed (token :: rest) rest :=
  ⟨[token], rfl, .single plain⟩

theorem cons (plain : token.tag ∉ brackets) (other : Spans Sealed tokens rest) :
    Spans Sealed (token :: tokens) rest :=
  before ⟨[token], rfl, .single plain⟩ other

theorem parenthesized (opens : opening.tag = .leftParen)
    (inner : Spans Nested tokens (closing :: rest)) (closes : closing.tag = .rightParen) :
    Spans Sealed (opening :: tokens) rest := by
  obtain ⟨taken, rfl, nested⟩ := inner
  exact ⟨opening :: (taken ++ [closing]), by simp, .parenthesized opens nested closes⟩

theorem braced (opens : opening.tag = .leftBrace)
    (inner : Spans Nested tokens (closing :: rest)) (closes : closing.tag = .rightBrace) :
    Spans Sealed (opening :: tokens) rest := by
  obtain ⟨taken, rfl, nested⟩ := inner
  exact ⟨opening :: (taken ++ [closing]), by simp, .braced opens nested closes⟩

theorem unclosed (opens : opening.tag = .leftBrace) (inner : Spans Nested tokens rest) :
    Spans Sealed (opening :: tokens) rest := by
  obtain ⟨taken, rfl, nested⟩ := inner
  exact ⟨opening :: taken, rfl, .unclosed opens nested⟩

end Spans

/-! ### Derivations -/

/-- What is known of the tokens of a construct. -/
def Construct.Bracketed : Construct → List Token → Prop
  | .statement _ | .statements _ => Nested
  | _ => Sealed

theorem ne_bracket_of_signs {tag : Tag} {operator : PrefixOperator}
    (stands : (tag, operator) ∈ signs) : tag ∉ brackets := by
  simp only [signs, List.mem_cons, Prod.mk.injEq, List.not_mem_nil, or_false] at stands
  rcases stands with ⟨rfl, _⟩ | ⟨rfl, _⟩ <;> decide

theorem ne_bracket_of_operators {tag : Tag} {operator : InfixOperator} {layer : Layer}
    (joins : (tag, operator) ∈ layer.operators) : tag ∉ brackets := by
  have found := (operatorLayer_of_mem joins).2
  intro member
  simp only [brackets, List.mem_cons, List.not_mem_nil, or_false] at member
  rcases member with rfl | rfl | rfl | rfl <;> cases found

theorem Terminated.nested {after rest : List Token} (ends : Terminated after rest) :
    Spans Nested after rest := by
  cases ends with
  | @semicolon token _ tagged => exact ⟨[token], rfl, .single (by rw [tagged]; decide)⟩
  | complete _ => exact ⟨[], rfl, .nil⟩

/-- The tokens of whatever derives are nested, and sealed unless they are statements. -/
theorem Derives.bracketed {construct : Construct} {tokens rest : List Token}
    (derivation : Derives construct tokens rest) : Spans construct.Bracketed tokens rest := by
  induction derivation with
  | infixed _ joins _ _ left right =>
    exact left.nested.before (.cons (ne_bracket_of_operators joins) right)
  | prefixed stands _ operand => exact .cons (ne_bracket_of_signs stands) operand
  | call _ _ callee given => exact callee.nested.before given
  | descend _ _ inner => exact inner
  | primary _ inner => exact inner
  | identifier tagged => exact .single (by rw [tagged]; decide)
  | integer tagged _ => exact .single (by rw [tagged]; decide)
  | truth tagged => exact .single (by rw [tagged]; decide)
  | falsity tagged => exact .single (by rw [tagged]; decide)
  | grouped opens _ closes inner => exact .parenthesized opens inner.nested closes
  | conditional tagged opens _ closes _ condition block =>
    have asked := Spans.parenthesized opens condition.nested closes
    exact .cons (by rw [tagged]; decide) (asked.nested.before block)
  | alternative tagged opens _ closes _ turns _ condition block other =>
    have asked := Spans.parenthesized opens condition.nested closes
    have turned := Spans.cons (by rw [turns]; decide) other
    exact .cons (by rw [tagged]; decide) (asked.nested.before (block.nested.before turned))
  | function tagged _ _ parameters block =>
    exact .cons (by rw [tagged]; decide) (parameters.nested.before block)
  | item _ inner => exact inner
  | items _ separates _ inner others =>
    exact inner.nested.before (.cons (by rw [separates]; decide) others)
  | noArguments opens closes => exact .parenthesized opens ⟨[], rfl, .nil⟩ closes
  | arguments opens _ closes inner => exact .parenthesized opens inner.nested closes
  | name tagged => exact .single (by rw [tagged]; decide)
  | names tagged separates _ others =>
    exact .cons (by rw [tagged]; decide) (.cons (by rw [separates]; decide) others)
  | noParameters opens closes => exact .parenthesized opens ⟨[], rfl, .nil⟩ closes
  | parameters opens _ closes inner => exact .parenthesized opens inner.nested closes
  | block opens _ closes inner =>
    cases closes with
    | brace tagged => exact .braced opens inner tagged
    | ended _ => exact .unclosed opens inner
  | binding tagged named assigns _ ends value =>
    have assigned := Spans.cons (by rw [assigns]; decide) value
    have bound := Spans.cons (by rw [named]; decide) assigned
    exact (Spans.cons (by rw [tagged]; decide) bound).nested.join ends.nested .append
  | bareReturn tagged ends =>
    exact (Spans.single (by rw [tagged]; decide)).nested.join
      ⟨[_], rfl, .single (by rw [ends]; decide)⟩ .append
  | lastReturn tagged _ => exact ⟨[_], rfl, .single (by rw [tagged]; decide)⟩
  | returning tagged _ ends value =>
    exact (Spans.cons (by rw [tagged]; decide) value).nested.join ends.nested .append
  | expression _ ends value => exact value.nested.join ends.nested .append
  | empty => exact ⟨[], rfl, .nil⟩
  | statements _ _ first others => exact first.join others .append

end Grammar

end Monkey
