/-
This file takes runs apart: what a sequence comes to from a machine when it
starts with a given step, also in a run that may be left, and what its parts came
to when the whole came to something. Statements in a row are a sequence too, which
can be cut anywhere. Operators that succeed come to integers and truth values,
which is all that evaluation needs to know of them.
-/

import Monkey.Evaluation

namespace Monkey.Run

variable {Result Following : Type} {machine final : Machine}

/-! ### Sequences -/

/-- A sequence comes to something exactly if its first part does and then its second part. -/
theorem bind_eq_some {first : Run Result} {second : Result → Run Following} {value : Following} :
    (first >>= second) machine = some (value, final) ↔
      ∃ result middle, first machine = some (result, middle) ∧
        second result middle = some (value, final) := by
  constructor
  · intro found
    obtain ⟨⟨result, middle⟩, one, other⟩ := Option.bind_eq_some_iff.mp found
    exact ⟨result, middle, one, other⟩
  · rintro ⟨result, middle, one, other⟩
    exact Option.bind_eq_some_iff.mpr ⟨(result, middle), one, other⟩

theorem bind_of_eq_some {first : Run Result} {second : Result → Run Following} {result : Result}
    {middle : Machine} (found : first machine = some (result, middle)) :
    (first >>= second) machine = second result middle := by
  show (first machine).bind _ = _
  rw [found]
  rfl

theorem bind_of_eq_none {first : Run Result} {second : Result → Run Following}
    (nothing : first machine = none) : (first >>= second) machine = none := by
  show (first machine).bind _ = _
  rw [nothing]
  rfl

/-! ### Runs that may be left -/

/-- After a step that nothing can leave, a sequence goes on. -/
theorem lift_bind_of_eq_some {Reason : Type} {step : Run Result}
    {second : Result → ExceptT Reason Run Following} {result : Result} {middle : Machine}
    (found : step machine = some (result, middle)) :
    ((liftM step : ExceptT Reason Run Result) >>= second) machine = second result middle := by
  show (((step machine).bind _).bind _) = _
  rw [found]
  rfl

theorem lift_bind_of_eq_none {Reason : Type} {step : Run Result}
    {second : Result → ExceptT Reason Run Following} (nothing : step machine = none) :
    ((liftM step : ExceptT Reason Run Result) >>= second) machine = none := by
  show (((step machine).bind _).bind _) = _
  rw [nothing]
  rfl

end Monkey.Run

/-! ### Statements in a row -/

namespace Monkey.Evaluation

variable {calling : Calling} {scope : ScopeId}

/-- What statements come to depends on the value before them only if there are none. -/
theorem statements_latest {block : List Statement} (some : block ≠ []) (latest other : Value) :
    statements calling scope latest block = statements calling scope other block := by
  obtain ⟨first, rest, rfl⟩ := List.exists_cons_of_ne_nil some
  unfold statements
  rfl

/-- Statements are evaluated after others unless these are left by an exit. -/
theorem statements_append {latest : Value} (stays : latest.isExit = false)
    (first second : List Statement) :
    statements calling scope latest (first ++ second) = (do
      let value ← statements calling scope latest first
      if value.isExit then return value else statements calling scope value second) := by
  induction first generalizing latest with
  | nil =>
    simp [statements, stays]
  | cons piece rest inductionHypothesis =>
    rw [List.cons_append, statements, statements, bind_assoc]
    refine congrArg _ (funext fun value => ?_)
    cases exits : value.isExit with
    | true => simp [exits]
    | false => simpa [exits] using inductionHypothesis exits

end Monkey.Evaluation

/-! ### Operators -/

namespace Monkey

/-- An operator comes to an integer or to a truth value, or to an error. -/
theorem PrefixOperator.apply_eq_ok {operator : PrefixOperator} {operand value : Value}
    (applied : operator.apply operand = .ok value) :
    (∃ number, value = .integer number) ∨ ∃ truth, value = .boolean truth := by
  cases operator with
  | bang =>
    cases applied
    exact .inr ⟨_, rfl⟩
  | minus =>
    cases operand <;> cases applied
    exact .inl ⟨_, rfl⟩

theorem InfixOperator.applyToIntegers_eq_ok {operator : InfixOperator} {left right : Int64}
    {value : Value} (applied : operator.applyToIntegers left right = .ok value) :
    (∃ number, value = .integer number) ∨ ∃ truth, value = .boolean truth := by
  cases operator with
  | plus | minus | times =>
    cases applied
    exact .inl ⟨_, rfl⟩
  | divide =>
    simp only [applyToIntegers] at applied
    split at applied <;> cases applied
    exact .inl ⟨_, rfl⟩
  | less | greater | equal | notEqual =>
    cases applied
    exact .inr ⟨_, rfl⟩

theorem InfixOperator.apply_eq_ok {operator : InfixOperator} {left right value : Value}
    (applied : operator.apply left right = .ok value) :
    (∃ number, value = .integer number) ∨ ∃ truth, value = .boolean truth := by
  unfold apply at applied
  split at applied
  · exact applyToIntegers_eq_ok applied
  · split at applied
    · cases applied
    · split at applied <;> cases applied
      · exact .inr ⟨_, rfl⟩
      · exact .inr ⟨_, rfl⟩

end Monkey
