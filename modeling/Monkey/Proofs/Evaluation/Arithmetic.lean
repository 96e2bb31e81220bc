/-
This file is about calculations: expressions of integers, signs and the four
operators of arithmetic. Every step of one wraps around at 64 bits. Sums,
differences, products and signs do not mind that numbers before them have wrapped
around, so without a quotient the integer that a calculation comes to is its exact
value, but for multiples of 2^64. A quotient does mind, and it cuts the numbers as
they are at that point. The first one whose divisor is zero there ends the
calculation, and nothing else can.

A calculation looks at no flag and at no binding, so none of this depends on where
and when it is evaluated.
-/

import Mathlib.Data.Int.ModEq
import Monkey.Proofs.Evaluation.Running

namespace Monkey

/-! ### Calculations -/

/-- The operators of arithmetic. -/
inductive Operation where
  | sum
  | difference
  | product
  | quotient
deriving DecidableEq

namespace Operation

/-- The operator of the language. -/
def operator : Operation → InfixOperator
  | sum => .plus
  | difference => .minus
  | product => .times
  | quotient => .divide

/-- The operation on numbers of any size. A quotient is cut towards zero; what it is by zero does
not matter. -/
def exact : Operation → Int → Int → Int
  | sum, left, right => left + right
  | difference, left, right => left - right
  | product, left, right => left * right
  | quotient, left, right => left.tdiv right

/-- The number that a number becomes in 64 bits, the first of which is a sign. -/
def wrap (number : Int) : Int :=
  number.bmod (2 ^ 64)

/-- The operation on numbers of 64 bits. There is one quotient that does not fit them, and it is the
dividend again. -/
def wrapped (operation : Operation) (left right : Int) : Int :=
  if operation ≠ quotient then wrap (operation.exact left right)
  else if left = -2 ^ 63 ∧ right = -1 then left
  else operation.exact left right

end Operation

/-- An expression of integers, signs and operators of arithmetic. -/
inductive Calculation where
  | integer (value : Int64)
  | negated (operand : Calculation)
  | joined (left : Calculation) (operation : Operation) (right : Calculation)

namespace Calculation

/-- The expression of the language. -/
def tree : Calculation → Expression
  | integer value => .integer value
  | negated operand => .prefixed .minus operand.tree
  | joined left operation right => .infixed left.tree operation.operator right.tree

/-- What the calculation comes to among all numbers. -/
def exact : Calculation → Int
  | integer value => value.toInt
  | negated operand => -operand.exact
  | joined left operation right => operation.exact left.exact right.exact

/-- What the calculation comes to if every step wraps around. -/
def wrapped : Calculation → Int
  | integer value => value.toInt
  | negated operand => Operation.wrap (-operand.wrapped)
  | joined left operation right => operation.wrapped left.wrapped right.wrapped

/-- The dividends and divisors of the quotients, as they are when each is taken, in the order in
which they are. -/
def divisions : Calculation → List (Int × Int)
  | integer _ => []
  | negated operand => operand.divisions
  | joined left operation right => left.divisions ++ right.divisions ++
      if operation = .quotient then [(left.wrapped, right.wrapped)] else []

/-- What evaluating the calculation comes to: a number, or the fault of the first quotient whose
divisor is zero. -/
inductive ComesTo (calculation : Calculation) : Value → Prop
  | number {number : Int64} (divisible : ∀ division ∈ calculation.divisions, division.2 ≠ 0)
      (value : number.toInt = calculation.wrapped) : ComesTo calculation (.integer number)
  | fault {before : List (Int × Int)} {dividend : Int} {fault : Fault}
      (first : before ++ [(dividend, 0)] <+: calculation.divisions)
      (divisible : ∀ division ∈ before, division.2 ≠ 0)
      (message : fault.message = "Division by zero: " ++ toString dividend ++ " / 0") :
    ComesTo calculation (.error fault)

/-! ### Exact values -/

open Operation (wrap)

theorem wrap_modEq (number : Int) : wrap number ≡ number [ZMOD 2 ^ 64] := by
  have same := Int.bmod_emod (x := number) (m := 2 ^ 64)
  rwa [Nat.cast_pow] at same

/-- Operations other than quotients do not mind multiples of 2^64. -/
theorem exact_modEq {operation : Operation} (whole : operation ≠ .quotient)
    {left right left' right' : Int} (first : left ≡ left' [ZMOD 2 ^ 64])
    (second : right ≡ right' [ZMOD 2 ^ 64]) :
    operation.exact left right ≡ operation.exact left' right' [ZMOD 2 ^ 64] := by
  cases operation with
  | sum => exact first.add second
  | difference => exact first.sub second
  | product => exact first.mul second
  | quotient => exact absurd rfl whole

/-- Without a quotient, wrapping around at every step is as good as wrapping around at the end. -/
theorem wrapped_modEq {calculation : Calculation} (whole : calculation.divisions = []) :
    calculation.wrapped ≡ calculation.exact [ZMOD 2 ^ 64] := by
  induction calculation with
  | integer value => exact .rfl
  | negated operand inductionHypothesis =>
    exact (wrap_modEq _).trans (inductionHypothesis whole).neg
  | joined left operation right first second =>
    rw [divisions, List.append_eq_nil_iff, List.append_eq_nil_iff] at whole
    obtain ⟨⟨none, none'⟩, own⟩ := whole
    have other : operation ≠ .quotient := by
      rintro rfl
      exact List.cons_ne_nil _ _ own
    rw [wrapped, Operation.wrapped, if_pos other]
    exact (wrap_modEq _).trans (exact_modEq other (first none) (second none'))

end Calculation

/-! ### Runs that only write -/

namespace Run

/-- From every machine the run comes to the value, and all it changes is the journal. -/
def Gives (run : Run Value) (value : Value) : Prop :=
  ∀ machine, ∃ journal, run machine = some (value, { machine with journal })

variable {first : Run Value} {proceed : Value → Run Value} {found value : Value}

theorem gives_pure (value : Value) : Gives (pure value) value :=
  fun machine => ⟨machine.journal, rfl⟩

theorem gives_fail (fault : Fault) : Gives (fail fault) (.error fault) :=
  fun _ => ⟨_, rfl⟩

theorem Gives.note {run : Run Value} (gives : Gives run value) (event : Event) :
    Gives (do Run.note event; run) value :=
  fun machine => gives (machine.write event)

theorem Gives.thenWith (gives : Gives first found) (sound : found.isError = false)
    (next : Gives (proceed found) value) : Gives (Run.thenWith first proceed) value := by
  intro machine
  obtain ⟨journal, one⟩ := gives machine
  obtain ⟨journal', other⟩ := next { machine with journal }
  refine ⟨journal', ?_⟩
  unfold Run.thenWith
  rw [bind_of_eq_some one, sound, if_neg Bool.false_ne_true, other]

theorem Gives.thenWith_error {fault : Fault} (gives : Gives first (.error fault)) :
    Gives (Run.thenWith first proceed) (.error fault) := by
  intro machine
  obtain ⟨journal, one⟩ := gives machine
  refine ⟨journal, ?_⟩
  unfold Run.thenWith
  rw [bind_of_eq_some one]
  rfl

end Run

/-! ### Evaluation -/

namespace Calculation

open Evaluation Run
open Operation (wrap)

/-- A quotient that does not fit is the least integer by minus one. -/
theorem toInt_div (left right : Int64) :
    (left / right).toInt = Operation.quotient.wrapped left.toInt right.toInt := by
  rw [Operation.wrapped, if_neg (not_not.mpr rfl)]
  split
  · rename_i least
    obtain ⟨leastLeft, minus⟩ := least
    obtain rfl : left = Int64.minValue := Int64.toInt_inj.mp leastLeft
    obtain rfl : right = -1 := Int64.toInt_inj.mp minus
    rw [Int64.minValue_div_neg_one]
  · rename_i fits
    obtain other | other := not_and_or.mp fits
    · exact Int64.toInt_div_of_ne_left left right fun same => other (congrArg Int64.toInt same)
    · exact Int64.toInt_div_of_ne_right left right fun same => other (congrArg Int64.toInt same)

example : (Int64.minValue / -1).toInt = -2 ^ 63 := by decide

/-- What an operator does to integers is the operation on numbers of 64 bits. -/
theorem applyToIntegers_operator {operation : Operation} {left right : Int64}
    (divisible : operation = .quotient → right ≠ 0) :
    ∃ number : Int64, operation.operator.applyToIntegers left right = .ok (.integer number) ∧
      number.toInt = operation.wrapped left.toInt right.toInt := by
  cases operation with
  | sum => exact ⟨left + right, rfl, Int64.toInt_add left right⟩
  | difference => exact ⟨left - right, rfl, Int64.toInt_sub left right⟩
  | product => exact ⟨left * right, rfl, Int64.toInt_mul left right⟩
  | quotient => exact ⟨left / right, if_neg (divisible rfl), toInt_div left right⟩

variable {left right : Calculation} {operation : Operation}

/-- The quotients of the operands come first. -/
theorem divisions_operands :
    left.divisions ++ right.divisions <+: (joined left operation right).divisions :=
  List.prefix_append _ _

theorem divisions_left : left.divisions <+: (joined left operation right).divisions :=
  (List.prefix_append _ _).trans divisions_operands

/-- Between two numbers, an operation comes to a number unless it is a quotient by zero. -/
theorem comesTo_joined {number number' : Int64}
    (divisible : ∀ division ∈ left.divisions, division.2 ≠ 0) (value : number.toInt = left.wrapped)
    (divisible' : ∀ division ∈ right.divisions, division.2 ≠ 0)
    (value' : number'.toInt = right.wrapped) :
    ∃ result, (joined left operation right).ComesTo result ∧
      Gives (settle (operation.operator.applyToIntegers number number')) result := by
  have earlier : ∀ division ∈ left.divisions ++ right.divisions, division.2 ≠ 0 :=
    List.forall_mem_append.mpr ⟨divisible, divisible'⟩
  by_cases zero : operation = .quotient ∧ number' = 0
  · obtain ⟨rfl, rfl⟩ := zero
    have own : (left.wrapped, right.wrapped) = (number.toInt, 0) := by
      rw [← value, ← value', Int64.toInt_zero]
    have last : (joined left .quotient right).divisions =
        left.divisions ++ right.divisions ++ [(number.toInt, 0)] := by
      rw [divisions, if_pos rfl, own]
    exact ⟨.error (.divisionByZero number), .fault (last ▸ List.prefix_rfl) earlier rfl,
      gives_fail _⟩
  · have divisor : operation = .quotient → number' ≠ 0 := not_and.mp zero
    obtain ⟨result, applied, wraps⟩ := applyToIntegers_operator divisor
    refine ⟨.integer result, .number (List.forall_mem_append.mpr ⟨earlier, ?_⟩) ?_, ?_⟩
    · split
      · rename_i quotient
        refine List.forall_mem_singleton.mpr fun none => divisor quotient ?_
        exact Int64.toInt_inj.mp (value'.trans none)
      · exact List.forall_mem_nil _
    · rw [wraps, value, value']
      rfl
    · rw [applied]
      exact gives_pure _

theorem gives_integer (calling : Calling) (scope : ScopeId) (value : Int64) :
    Gives (expression calling scope (integer value).tree) (.integer value) :=
  (gives_pure _).note _

theorem gives_negated {calling : Calling} {scope : ScopeId} {operand : Calculation} {number : Int64}
    (gives : Gives (expression calling scope operand.tree) (.integer number)) :
    Gives (expression calling scope (negated operand).tree) (.integer (-number)) :=
  (gives.thenWith rfl ((gives_pure _).note _)).note _

/-- In whatever scope a calculation is evaluated, it comes to a number or to the fault of its first
quotient by zero. -/
theorem gives_tree (calling : Calling) (scope : ScopeId) (calculation : Calculation) :
    ∃ value, calculation.ComesTo value ∧
      Gives (expression calling scope calculation.tree) value := by
  induction calculation with
  | integer value => exact ⟨.integer value, .number nofun rfl, gives_integer calling scope value⟩
  | negated operand inductionHypothesis =>
    obtain ⟨_, comesTo, gives⟩ := inductionHypothesis
    cases comesTo with
    | @number number divisible value =>
      have negative : (-number).toInt = wrap (-operand.wrapped) := by
        rw [Int64.toInt_neg, value]
        rfl
      exact ⟨_, .number divisible negative, gives_negated gives⟩
    | fault first divisible message =>
      exact ⟨_, .fault first divisible message, gives.thenWith_error.note _⟩
  | joined left operation right first second =>
    obtain ⟨_, comesTo, gives⟩ := first
    obtain ⟨_, comesTo', gives'⟩ := second
    cases comesTo with
    | fault zero divisible message =>
      exact ⟨_, .fault (zero.trans divisions_left) divisible message, gives.thenWith_error.note _⟩
    | number divisible value =>
      cases comesTo' with
      | @fault before dividend _ zero divisible' message =>
        have later : left.divisions ++ before ++ [(dividend, 0)] <+:
            (joined left operation right).divisions := by
          rw [List.append_assoc]
          exact ((List.prefix_append_right_inj _).mpr zero).trans divisions_operands
        exact ⟨_, .fault later (List.forall_mem_append.mpr ⟨divisible, divisible'⟩) message,
          (gives.thenWith rfl (gives'.thenWith_error.note _)).note _⟩
      | number divisible' value' =>
        obtain ⟨result, comesTo, settles⟩ := comesTo_joined divisible value divisible' value'
        exact ⟨result, comesTo,
          (gives.thenWith rfl ((gives'.thenWith rfl (settles.note _)).note _)).note _⟩

/-- Wherever a calculation is evaluated, it comes to a number or to the fault of its first quotient
by zero, and changes nothing. Without a quotient it comes to the number of 64 bits that is congruent
to its exact value. -/
theorem calculations_wrap (calling : Calling) (scope : ScopeId) (calculation : Calculation)
    (machine : Machine) :
    ∃ value journal,
      expression calling scope calculation.tree machine = some (value, { machine with journal }) ∧
        calculation.ComesTo value ∧
        (calculation.divisions = [] →
          ∃ number, value = .integer number ∧ number.toInt ≡ calculation.exact [ZMOD 2 ^ 64]) := by
  obtain ⟨value, comesTo, gives⟩ := gives_tree calling scope calculation
  obtain ⟨journal, evaluated⟩ := gives machine
  refine ⟨value, journal, evaluated, comesTo, fun whole => ?_⟩
  cases comesTo with
  | @number number _ same =>
    refine ⟨number, rfl, ?_⟩
    rw [same]
    exact wrapped_modEq whole
  | fault first =>
    rw [whole, List.prefix_nil] at first
    exact absurd first (List.concat_ne_nil _ _)

/-- Three times the number after the greatest integer, less minus three. -/
theorem calculations_wrap_overflowing :
    let beyond := joined (integer Int64.maxValue) .sum (integer 1)
    let calculation := joined (joined beyond .product (integer 3)) .difference (negated (integer 3))
    calculation.divisions = [] ∧ calculation.exact = 27670116110564327427 ∧
      ∃ number journal,
        expression (call 0) 0 calculation.tree (.ofStore .empty) =
          some (.integer number, { Machine.ofStore .empty with journal }) ∧
        number.toInt ≡ calculation.exact [ZMOD 2 ^ 64] := by
  intro beyond calculation
  obtain ⟨value, journal, evaluated, _, congruent⟩ :=
    calculations_wrap (call 0) 0 calculation (.ofStore .empty)
  have whole : calculation.divisions = [] := rfl
  obtain ⟨number, rfl, same⟩ := congruent whole
  exact ⟨whole, by decide, number, journal, evaluated, same⟩

end Calculation

end Monkey
