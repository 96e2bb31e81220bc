/-
This file says what it takes to run other syntax of the same shape in place of
some syntax. What becomes of a piece of syntax is up to the region it stands in.
A function literal may start another region, and then the scopes of its calls
belong to that one. Each form of syntax has one law, which says what becomes of
its parts.

A name may become another one in a region and stay the same further outward. It
must not be looked up there, so a scope at the border of the region binds it.

The shape may change in one way: a block opens no scope, so what becomes of its
statements may stand in place of a conditional statement that always runs it.

Nothing at all becomes of syntax in the plainest case, where two runs of the same
program are compared.
-/

import Monkey.Program

namespace Monkey

/-! ### Names -/

/-- What becomes of names. -/
structure Naming where
  /-- Where a piece of syntax stands, or where a scope was opened. -/
  Region : Type
  name : Region → String → String
  /-- The name can stand in the region. -/
  Free : Region → String → Prop
  /-- A scope in the first region that binds these names can lie in a scope in the second one. -/
  Around : Region → Region → List String → Prop
  /-- A scope in the region that binds these names can lie in no other scope. -/
  Outermost : Region → List String → Prop
  name_inj : ∀ {region first second}, Free region first → Free region second →
    (name region first = name region second ↔ first = second)
  around_bind : ∀ {region around names wider}, Around region around names → names ⊆ wider →
    Around region around wider
  outermost_bind : ∀ {region names wider}, Outermost region names → names ⊆ wider →
    Outermost region wider
  /-- A name that is not bound in a scope is the same in the scope around it. -/
  name_around : ∀ {region around names other}, Around region around names → other ∉ names →
    Free region other → Free around other ∧ name around other = name region other
  name_outermost : ∀ {region names other}, Outermost region names → other ∉ names →
    name region other = other

/-! ### Syntax -/

/-- What becomes of syntax. -/
structure Translation extends Naming where
  /-- The statements of a block may stand in place of a conditional that always runs them. -/
  splices : Bool := false
  OfExpression : Region → Expression → Expression → Prop
  OfExpressions : Region → List Expression → List Expression → Prop
  OfStatement : Region → Statement → Statement → Prop
  OfStatements : Region → List Statement → List Statement → Prop
  of_identifier : ∀ {region identifier piece'},
    OfExpression region (.identifier identifier) piece' →
      piece' = .identifier (name region identifier) ∧ Free region identifier
  of_integer : ∀ {region value piece'}, OfExpression region (.integer value) piece' →
    piece' = .integer value
  of_boolean : ∀ {region value piece'}, OfExpression region (.boolean value) piece' →
    piece' = .boolean value
  of_prefixed : ∀ {region operator operand piece'},
    OfExpression region (.prefixed operator operand) piece' →
      ∃ operand', piece' = .prefixed operator operand' ∧ OfExpression region operand operand'
  of_infixed : ∀ {region left operator right piece'},
    OfExpression region (.infixed left operator right) piece' →
      ∃ left' right', piece' = .infixed left' operator right' ∧
        OfExpression region left left' ∧ OfExpression region right right'
  of_conditional : ∀ {region condition consequence piece'},
    OfExpression region (.conditional condition consequence none) piece' →
      ∃ condition' consequence', piece' = .conditional condition' consequence' none ∧
        OfExpression region condition condition' ∧ OfStatements region consequence consequence'
  of_alternative : ∀ {region condition consequence otherwise piece'},
    OfExpression region (.conditional condition consequence (some otherwise)) piece' →
      ∃ condition' consequence' otherwise',
        piece' = .conditional condition' consequence' (some otherwise') ∧
          OfExpression region condition condition' ∧
          OfStatements region consequence consequence' ∧ OfStatements region otherwise otherwise'
  of_function : ∀ {region parameters body piece'},
    OfExpression region (.function parameters body) piece' →
      ∃ within body', piece' = .function (parameters.map (name within)) body' ∧
        OfStatements within body body' ∧ (∀ parameter ∈ parameters, Free within parameter) ∧
        Around within region parameters
  of_call : ∀ {region callee given piece'}, OfExpression region (.call callee given) piece' →
    ∃ callee' given', piece' = .call callee' given' ∧ OfExpression region callee callee' ∧
      OfExpressions region given given'
  of_no_expressions : ∀ {region pieces'}, OfExpressions region [] pieces' → pieces' = []
  of_expressions : ∀ {region first rest pieces'}, OfExpressions region (first :: rest) pieces' →
    ∃ first' rest', pieces' = first' :: rest' ∧ OfExpression region first first' ∧
      OfExpressions region rest rest'
  of_binding : ∀ {region bound value piece'}, OfStatement region (.binding bound value) piece' →
    ∃ value', piece' = .binding (name region bound) value' ∧ Free region bound ∧
      OfExpression region value value'
  of_bareReturn : ∀ {region piece'}, OfStatement region (.returning none) piece' →
    piece' = .returning none
  of_returning : ∀ {region value piece'}, OfStatement region (.returning (some value)) piece' →
    ∃ value', piece' = .returning (some value') ∧ OfExpression region value value'
  of_expression : ∀ {region value piece'}, OfStatement region (.expression value) piece' →
    ∃ value', piece' = .expression value' ∧ OfExpression region value value'
  of_no_statements : ∀ {region pieces'}, OfStatements region [] pieces' → pieces' = []
  of_statements : ∀ {region first rest pieces'}, OfStatements region (first :: rest) pieces' →
    (∃ first' rest', pieces' = first' :: rest' ∧ OfStatement region first first' ∧
      OfStatements region rest rest') ∨
    splices = true ∧ ∃ block otherwise block' rest',
      first = .expression (.conditional (.boolean true) block otherwise) ∧
        pieces' = block' ++ rest' ∧ block' ≠ [] ∧ OfStatements region block block' ∧
        OfStatements region rest rest'

/-- Everything stays as it is. -/
def Translation.identity : Translation where
  Region := Unit
  name _ name := name
  Free _ _ := True
  Around _ _ _ := True
  Outermost _ _ := True
  name_inj _ _ := Iff.rfl
  around_bind _ _ := trivial
  outermost_bind _ _ := trivial
  name_around _ _ _ := ⟨trivial, rfl⟩
  name_outermost _ _ := rfl
  OfExpression _ piece piece' := piece' = piece
  OfExpressions _ pieces pieces' := pieces' = pieces
  OfStatement _ piece piece' := piece' = piece
  OfStatements _ pieces pieces' := pieces' = pieces
  of_identifier same := ⟨same, trivial⟩
  of_integer := id
  of_boolean := id
  of_prefixed same := ⟨_, same, rfl⟩
  of_infixed same := ⟨_, _, same, rfl, rfl⟩
  of_conditional same := ⟨_, _, same, rfl, rfl⟩
  of_alternative same := ⟨_, _, _, same, rfl, rfl, rfl⟩
  of_function same := ⟨(), _, by rw [same, List.map_id'], rfl, fun _ _ => trivial, trivial⟩
  of_call same := ⟨_, _, same, rfl, rfl⟩
  of_no_expressions := id
  of_expressions same := ⟨_, _, same, rfl, rfl⟩
  of_binding same := ⟨_, same, trivial, rfl⟩
  of_bareReturn := id
  of_returning same := ⟨_, same, rfl⟩
  of_expression same := ⟨_, same, rfl⟩
  of_no_statements := id
  of_statements same := .inl ⟨_, _, same, rfl, rfl⟩

end Monkey
