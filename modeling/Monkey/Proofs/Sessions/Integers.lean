/-
This file is about integers as texts. A text is read as an integer exactly if it is
decimal digits, with a sign in front or without, and the number that they stand for
fits 64 bits. An integer is shown in this way too, but the language has no signed
integers: a minus sign is an operator, and its operand is read before it applies. So
what a session shows for an integer can be run again and comes to the integer, except
for the least one, whose digits alone stand for a number that is too large.
-/

import Monkey.Proofs.Evaluation.Arithmetic
import Monkey.Proofs.Printing.Inversion
import Monkey.Proofs.Scanning.Lexical
import Monkey.Proofs.Sessions.Requests

namespace Monkey

/-! ### Numerals -/

namespace Numeral

variable {characters : List Char} {number : Nat} {value : Int64} {text : String}

/-- One or more decimal digits and the number that they stand for. -/
inductive Decimal : List Char → Nat → Prop
  | digit {character : Char} (decimal : character.isDigit) :
    Decimal [character] (character.toNat - '0'.toNat)
  | append {digits : List Char} {front : Nat} {character : Char} (others : Decimal digits front)
      (decimal : character.isDigit) :
    Decimal (digits ++ [character]) (10 * front + (character.toNat - '0'.toNat))

/-- Decimal digits with at most one sign in front and the number that they stand for. -/
inductive Denotes : List Char → Int → Prop
  | natural {digits : List Char} {number : Nat} (decimal : Decimal digits number) :
    Denotes digits number
  | positive {digits : List Char} {number : Nat} (decimal : Decimal digits number) :
    Denotes ('+' :: digits) number
  | negative {digits : List Char} {number : Nat} (decimal : Decimal digits number) :
    Denotes ('-' :: digits) (-number)

theorem Decimal.digits (decimal : Decimal characters number) :
    ∀ character ∈ characters, character.isDigit := by
  induction decimal with
  | digit decimal => exact List.forall_mem_singleton.mpr decimal
  | append _ decimal inductionHypothesis =>
    exact List.forall_mem_append.mpr ⟨inductionHypothesis, List.forall_mem_singleton.mpr decimal⟩

theorem Decimal.ne_nil (decimal : Decimal characters number) : characters ≠ [] := by
  cases decimal with
  | digit => exact List.cons_ne_nil _ _
  | append => exact List.concat_ne_nil _ _

theorem Decimal.ofDigitChars (decimal : Decimal characters number) :
    Nat.ofDigitChars 10 characters 0 = number := by
  induction decimal with
  | digit => rw [Nat.ofDigitChars_cons, Nat.ofDigitChars_nil, Nat.mul_zero, Nat.zero_add]
  | append _ _ inductionHypothesis =>
    rw [Nat.ofDigitChars_append, inductionHypothesis, Nat.ofDigitChars_cons, Nat.ofDigitChars_nil]

/-- Any digits stand for the number that is read of them. -/
theorem decimal_of_digits (some : characters ≠ [])
    (digits : ∀ character ∈ characters, character.isDigit) :
    Decimal characters (Nat.ofDigitChars 10 characters 0) := by
  induction characters using List.reverseRecOn with
  | nil => exact absurd rfl some
  | append_singleton front character inductionHypothesis =>
    obtain ⟨others, last⟩ := List.forall_mem_append.mp digits
    have last := List.forall_mem_singleton.mp last
    rw [Nat.ofDigitChars_append, Nat.ofDigitChars_cons, Nat.ofDigitChars_nil]
    by_cases first : front = []
    · subst first
      rw [Nat.ofDigitChars_nil, Nat.mul_zero, Nat.zero_add]
      exact .digit last
    · exact .append (inductionHypothesis first others) last

theorem magnitude?_eq_some_iff :
    magnitude? characters = some number ↔ Decimal characters number := by
  unfold magnitude?
  constructor
  · intro found
    split at found
    · rename_i digits
      obtain rfl := Option.some.inj found
      exact decimal_of_digits digits.1 (List.all_eq_true.mp digits.2)
    · cases found
  · intro decimal
    rw [if_pos ⟨decimal.ne_nil, List.all_eq_true.mpr decimal.digits⟩, decimal.ofDigitChars]

/-- A number is an integer exactly if some integer has this value. -/
theorem word?_eq_some_iff {number : Int} : word? number = some value ↔ value.toInt = number := by
  refine ⟨toInt_of_word?, ?_⟩
  rintro rfl
  unfold word?
  rw [if_pos ⟨Int64.minValue_le_toInt value, Int64.toInt_le value⟩, Int64.ofInt_toInt]

theorem bind_word?_eq_some_iff {signed : Nat → Int} :
    ((magnitude? characters).bind fun number => word? (signed number)) = some value ↔
      ∃ number, Decimal characters number ∧ value.toInt = signed number := by
  simp only [Option.bind_eq_some_iff, magnitude?_eq_some_iff, word?_eq_some_iff]

/-- Digits start with no sign. -/
theorem Decimal.starts (decimal : Decimal characters number) :
    ∀ first ∈ characters.head?, first ≠ '+' ∧ first ≠ '-' := by
  intro first starts
  have digit := decimal.digits first (List.mem_of_head? starts)
  constructor <;> rintro rfl <;> cases digit

/-- A text is read as the integer that it denotes, if there is one. -/
theorem read?_eq_some_iff : read? text = some value ↔ Denotes text.toList value.toInt := by
  unfold read?
  split
  · rename_i digits written
    rw [bind_word?_eq_some_iff, written]
    constructor
    · rintro ⟨number, decimal, same⟩
      exact same ▸ .positive decimal
    · generalize value.toInt = whole
      rintro (decimal | decimal | _)
      · exact absurd rfl (decimal.starts _ rfl).1
      · exact ⟨_, decimal, rfl⟩
  · rename_i digits written
    rw [bind_word?_eq_some_iff, written]
    constructor
    · rintro ⟨number, decimal, same⟩
      exact same ▸ .negative decimal
    · generalize value.toInt = whole
      rintro (decimal | _ | decimal)
      · exact absurd rfl (decimal.starts _ rfl).2
      · exact ⟨_, decimal, rfl⟩
  · rename_i plus minus
    rw [bind_word?_eq_some_iff]
    constructor
    · rintro ⟨number, decimal, same⟩
      exact same ▸ .natural decimal
    · generalize text.toList = characters at plus minus
      generalize value.toInt = whole
      rintro (decimal | _ | _)
      · exact ⟨_, decimal, rfl⟩
      · exact absurd rfl (plus _)
      · exact absurd rfl (minus _)

/-- Where an operand starts with a number, its text is read as an integer, and given back as it is
if it denotes none. -/
theorem operandAfter_integer (inner : Readings) (text : String) (tokens : List Token) :
    inner.operandAfter ⟨.integer, text⟩ tokens = some
      (match read? text with
        | some value => .accepted (.integer value) [] tokens
        | none => .rejected (.invalidInteger text) [] tokens) := by
  unfold Readings.operandAfter
  cases found : read? text <;> rfl

end Numeral

/-! ### Texts of integers -/

section

open Grammar Token

/-- A text that is laid out as the tokens of an expression is parsed as the expression. -/
theorem parse_of_laidOut {text : String} {tokens : List Token} {tree : Expression}
    (laid : LaidOut text tokens []) (derives : Derives (.layer .sign tree) tokens []) :
    Program.parse text = ⟨⟨[.expression tree]⟩, []⟩ := by
  have layout := laid [] (.ended (List.forall_mem_nil _))
  rw [List.append_nil, List.append_nil] at layout
  have scanned : scan text = tokens := layout.scanned
  have whole : Derives (.expression tree) tokens [] := derives.loosen (by decide)
  have program : Derives (.statements [.expression tree]) tokens [] :=
    .statements (.expression whole (.complete (by decide))) .empty
  unfold Program.parse
  rw [scanned, ofTokens_eq_iff]
  exact ⟨[], (read_of_derives program).2 rfl⟩

theorem parse_natural {value : Int64} (natural : 0 ≤ value) :
    Program.parse (integerText value) = ⟨⟨[.expression (.integer value)]⟩, []⟩ := by
  obtain ⟨tokens, readable⟩ := (Expression.Plain.integer natural).readable
  have derives := readable.derives_layer .sign []
  rw [List.append_nil] at derives
  exact parse_of_laidOut (readable.laid [] edge_nil) derives

/-- A minus sign before a number is an operator. -/
theorem parse_negative {value : Int64} (natural : 0 ≤ value) :
    Program.parse ("-" ++ integerText value) =
      ⟨⟨[.expression (.prefixed .minus (.integer value))]⟩, []⟩ := by
  obtain ⟨tokens, readable⟩ := (Expression.Plain.integer natural).readable
  have derives := readable.derives_layer .sign []
  rw [List.append_nil] at derives
  have sign := PrefixOperator.minus.laidOut (readable.starts [])
  exact parse_of_laidOut (sign.append (readable.laid [] edge_nil))
    (.prefixed PrefixOperator.minus.stands derives)

end

/-- A negative integer is shown as its opposite with a minus sign, if it has an opposite. -/
theorem integerText_of_negative {value : Int64} (negative : value < 0)
    (other : value ≠ Int64.minValue) :
    0 ≤ -value ∧ integerText value = "-" ++ integerText (-value) := by
  have below : value.toInt < 0 := Int64.lt_iff_toInt_lt.mp negative
  have above : -2 ^ 63 < value.toInt := by
    refine lt_of_le_of_ne (Int64.minValue_le_toInt value) fun same => other ?_
    exact Int64.toInt_inj.mp same.symm
  have opposite : (-value).toInt = -value.toInt := by
    rw [Int64.toInt_neg]
    exact Int.bmod_eq_of_le (by omega) (by omega)
  refine ⟨Int64.le_iff_toInt_le.mpr ?_, ?_⟩
  · rw [opposite, Int64.toInt_zero]
    omega
  · unfold integerText
    rw [opposite]
    generalize value.toInt = number at below
    cases number with
    | ofNat number => exact absurd below (Int.not_lt.mpr (Int.natCast_nonneg number))
    | negSucc number => rfl

/-! ### Running them -/

open Evaluation

/-- A program of one expression comes to its value. -/
theorem Program.run_of_gives {tree : Expression} {value : Value} {depth : Nat} {scope : ScopeId}
    {machine : Machine} (gives : Run.Gives (expression (call depth) scope tree) value)
    (stays : value.isExit = false) (quiet : Run.look machine = some (false, machine)) :
    ∃ journal, Program.run ⟨[.expression tree]⟩ depth scope machine =
      some (.finished value, { machine with journal }) := by
  obtain ⟨journal, evaluated⟩ := gives (machine.write (.statement (.expression tree)))
  have stated : statement (call depth) scope (.expression tree) machine =
      some (value, { machine with journal }) := by
    unfold statement
    rw [Run.bind_of_eq_some quiet, if_neg Bool.false_ne_true]
    exact evaluated
  have row : Evaluation.statements (call depth) scope .null [.expression tree] machine =
      some (value, { machine with journal }) := by
    unfold Evaluation.statements
    rw [Run.bind_of_eq_some stated, stays, if_neg Bool.false_ne_true]
    rfl
  have finished : Completion.ofValue value = .finished value := by
    cases value <;> first | rfl | cases stays
  refine ⟨journal, ?_⟩
  unfold Program.run
  rw [Run.bind_of_eq_some row, finished]
  rfl

namespace Session

variable {session : Session} {depth : Nat} {source : String}

/-- An evaluation would not be interrupted at once. -/
def Quiet (session : Session) : Prop :=
  Run.look session.machine = some (false, session.machine)

theorem quiet_undisturbed (store : Store) (scope : ScopeId) (flag : Option Bool) :
    (⟨store, scope, flag.map .undisturbed⟩ : Session).Quiet := by
  cases flag <;> rfl

/-- A session that runs one expression shows its value, and lowers the flag. -/
theorem run_of_gives {tree : Expression} {value : Value}
    (parsed : Program.parse source = ⟨⟨[.expression tree]⟩, []⟩)
    (gives : Run.Gives (expression (call depth) session.scope tree) value)
    (stays : value.isExit = false) (quiet : session.Quiet) :
    session.run depth source =
      some (.value value, { session with signal := session.machine.signal }) := by
  obtain ⟨journal, ended⟩ := Program.run_of_gives gives stays quiet
  rw [run_of_clean session depth (congrArg Parsed.diagnostics parsed), parsed, evaluate_eq, ended]
  rfl

/-- What is shown for an integer is run as the integer, unless it is the least one. -/
theorem run_integerText {value : Int64} (other : value ≠ Int64.minValue) (quiet : session.Quiet) :
    session.run depth (integerText value) =
      some (.value (.integer value), { session with signal := session.machine.signal }) := by
  by_cases natural : 0 ≤ value
  · exact run_of_gives (parse_natural natural) (Calculation.gives_integer _ _ value) rfl quiet
  · obtain ⟨opposite, written⟩ := integerText_of_negative (Int64.not_le.mp natural) other
    have gives := Calculation.gives_negated
      (Calculation.gives_integer (call depth) session.scope (-value))
    rw [Int64.neg_neg] at gives
    rw [written]
    exact run_of_gives (parse_negative opposite) gives rfl quiet

/-- The digits of the least integer are read before their sign, and are too many. -/
theorem run_least : session.run depth (integerText Int64.minValue) =
    some (.refusal [.invalidInteger "9223372036854775808"], session) := by
  have diagnostics : (Program.parse (integerText Int64.minValue)).diagnostics =
      [.invalidInteger "9223372036854775808"] := by decide +kernel
  rw [run_of_refused session depth (diagnostics ▸ List.cons_ne_nil _ _), diagnostics]

end Session

/-- A text is read as the integer that it denotes, also where the language reads numbers, and if it
denotes none it is reported as it is. What is shown for an integer is run as the integer, except for
the least one, in every session that is not interrupted. -/
theorem integers_are_their_texts :
    (∀ text value, Numeral.read? text = some value ↔
        Numeral.Denotes text.toList value.toInt) ∧
      (∀ (inner : Readings) text tokens, inner.operandAfter ⟨.integer, text⟩ tokens = some
        (match Numeral.read? text with
          | some value => .accepted (.integer value) [] tokens
          | none => .rejected (.invalidInteger text) [] tokens)) ∧
      ∀ store scope (flag : Option Bool) depth (value : Int64),
        let session : Session := ⟨store, scope, flag.map .undisturbed⟩
        session.run depth (Value.integer value).text =
          if value = Int64.minValue then
            some (.refusal [.invalidInteger "9223372036854775808"], session)
          else
            some (.value (.integer value),
              ⟨store, scope, flag.map fun _ => .undisturbed false⟩) := by
  refine ⟨fun _ _ => Numeral.read?_eq_some_iff, Numeral.operandAfter_integer, ?_⟩
  intro store scope flag depth value session
  split
  · rename_i least
    subst least
    exact Session.run_least
  · rename_i other
    have lowered : session.machine.signal = flag.map fun _ => .undisturbed false :=
      Option.map_map ..
    rw [← lowered]
    exact Session.run_integerText other (Session.quiet_undisturbed store scope flag)

end Monkey
