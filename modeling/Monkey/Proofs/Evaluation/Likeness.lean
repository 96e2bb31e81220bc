/-
This file compares values up to the functions in them. Two values are alike if
they are the same but for functions, and functions stand in the same places and
are alike by some relation on closures. Everything that evaluation finds out
about a value then comes out the same, as long as the relation knows which
closures are one and the same.
-/

import Monkey.Proofs.Evaluation.Running

namespace Monkey

variable {Alike Other : Closure → Closure → Prop} {value value' left left' right right' : Value}

/-! ### Values -/

/-- The same value, except that there may be alike functions in place of functions. -/
inductive Value.Like (Alike : Closure → Closure → Prop) : Value → Value → Prop
  | integer (value : Int64) : Like Alike (.integer value) (.integer value)
  | boolean (value : Bool) : Like Alike (.boolean value) (.boolean value)
  | null : Like Alike .null .null
  | function {closure closure' : Closure} (alike : Alike closure closure') :
    Like Alike (.function closure) (.function closure')
  | returned {value value' : Value} (inner : Like Alike value value') :
    Like Alike (.returned value) (.returned value')
  | error (fault : Fault) : Like Alike (.error fault) (.error fault)

namespace Value.Like

theorem imp (alike : value.Like Alike value')
    (implies : ∀ closure closure', Alike closure closure' → Other closure closure') :
    value.Like Other value' := by
  induction alike with
  | integer value => exact .integer value
  | boolean value => exact .boolean value
  | null => exact .null
  | function one => exact .function (implies _ _ one)
  | returned _ inductionHypothesis => exact .returned inductionHypothesis
  | error fault => exact .error fault

theorem kind (alike : value.Like Alike value') : value'.kind = value.kind := by
  cases alike <;> rfl

theorem isError (alike : value.Like Alike value') : value'.isError = value.isError := by
  cases alike <;> rfl

theorem isExit (alike : value.Like Alike value') : value'.isExit = value.isExit := by
  cases alike <;> rfl

theorem isTruthy (alike : value.Like Alike value') : value'.isTruthy = value.isTruthy := by
  cases alike <;> rfl

theorem unwrapped (alike : value.Like Alike value') :
    value.unwrapped.Like Alike value'.unwrapped := by
  cases alike with
  | returned inner => exact inner
  | integer value => exact .integer value
  | boolean value => exact .boolean value
  | null => exact .null
  | function one => exact .function one
  | error fault => exact .error fault

/-! ### Operators -/

/-- Integers and truth values are all that operators come to. -/
theorem of_plain (plain : (∃ number, value = .integer number) ∨ ∃ truth, value = .boolean truth) :
    value.Like Alike value := by
  obtain ⟨number, rfl⟩ | ⟨truth, rfl⟩ := plain
  · exact .integer number
  · exact .boolean truth

theorem prefix_apply (alike : value.Like Alike value') (operator : PrefixOperator) :
    operator.apply value' = operator.apply value := by
  cases operator with
  | bang => simp only [PrefixOperator.apply, alike.isTruthy]
  | minus => cases alike <;> rfl

/-- The relation takes the same closure to the same, and different ones to different ones. -/
def Identifies (Alike : Closure → Closure → Prop) : Prop :=
  ∀ first first' second second', Alike first first' → Alike second second' →
    (first'.identity = second'.identity ↔ first.identity = second.identity)

theorem isIdentical (identifies : Identifies Alike) (one : left.Like Alike left')
    (other : right.Like Alike right') : left'.isIdentical right' = left.isIdentical right := by
  cases one with
  | function first =>
    cases other with
    | function second =>
      have same := identifies _ _ _ _ first second
      simp only [Value.isIdentical]
      exact Bool.eq_iff_iff.mpr (by simpa using same)
    | _ => rfl
  | _ => cases other <;> rfl

theorem infix_apply (identifies : Identifies Alike) (one : left.Like Alike left')
    (other : right.Like Alike right') (operator : InfixOperator) :
    operator.apply left' right' = operator.apply left right := by
  have identical := isIdentical identifies one other
  cases one with
  | function first =>
    cases other with
    | function second =>
      simp only [InfixOperator.apply, Value.kind, identical]
      rfl
    | _ => rfl
  | _ => cases other <;> rfl

end Value.Like

/-! ### Completions -/

/-- Ended in the same way, with alike values. -/
inductive Completion.Like (Alike : Closure → Closure → Prop) : Completion → Completion → Prop
  | finished {value value' : Value} (inner : value.Like Alike value') :
    Like Alike (.finished value) (.finished value')
  | stopped {value value' : Value} (inner : value.Like Alike value') :
    Like Alike (.stopped value) (.stopped value')

theorem Completion.Like.imp {completion completion' : Completion}
    (alike : completion.Like Alike completion')
    (implies : ∀ closure closure', Alike closure closure' → Other closure closure') :
    completion.Like Other completion' := by
  cases alike with
  | finished inner => exact .finished (inner.imp implies)
  | stopped inner => exact .stopped (inner.imp implies)

theorem Value.Like.completion (alike : value.Like Alike value') :
    (Completion.ofValue value).Like Alike (.ofValue value') := by
  cases alike with
  | returned inner => exact .stopped inner
  | error fault => exact .stopped (.error fault)
  | integer value => exact .finished (.integer value)
  | boolean value => exact .finished (.boolean value)
  | null => exact .finished .null
  | function one => exact .finished (.function one)

end Monkey
