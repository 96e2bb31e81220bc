/-
This file renames a parameter of a function literal. Inside of the literal the
new name stands wherever the old one stood: among the parameters, in `let`
statements, as an identifier and in the literals within. Outside of it nothing
is changed, so a piece of syntax around the literal has it replaced and is
otherwise the same.

The two are taken together as what becomes of a piece in a region: the inside of
the literal or the outside. Each form of syntax then has one lemma, which says
what becomes of its parts, so that this is a translation. The scope of a call of
the literal binds the old name, so it is never looked up further outward, where
it was not renamed.
-/

import Monkey.Proofs.Mirroring.Translation
import Mathlib.Data.List.Basic

namespace Monkey

/-! ### Names in syntax -/

mutual

/-- The names in an expression, wherever they stand. -/
def Expression.names : Expression → List String
  | .identifier name => [name]
  | .integer _ | .boolean _ => []
  | .prefixed _ operand => operand.names
  | .infixed left _ right => left.names ++ right.names
  | .conditional condition consequence alternative =>
    condition.names ++ (namesIn consequence ++
      match alternative with
      | some statements => namesIn statements
      | none => [])
  | .function parameters body => parameters ++ namesIn body
  | .call callee given => callee.names ++ namesAmong given

/-- The names in expressions. -/
def namesAmong : List Expression → List String
  | [] => []
  | first :: rest => first.names ++ namesAmong rest

/-- The names in a statement. -/
def Statement.names : Statement → List String
  | .binding name value => name :: value.names
  | .returning none => []
  | .returning (some value) => value.names
  | .expression value => value.names

/-- The names in statements. -/
def namesIn : List Statement → List String
  | [] => []
  | first :: rest => first.names ++ namesIn rest

end

/-- A name, or the new name in place of the old one. -/
def renameName (old new name : String) : String :=
  if name = old then new else name

mutual

/-- An expression with a new name wherever the old one stood. -/
def Expression.rename (old new : String) : Expression → Expression
  | .identifier name => .identifier (renameName old new name)
  | .integer value => .integer value
  | .boolean value => .boolean value
  | .prefixed operator operand => .prefixed operator (operand.rename old new)
  | .infixed left operator right => .infixed (left.rename old new) operator (right.rename old new)
  | .conditional condition consequence alternative =>
    .conditional (condition.rename old new) (renameIn old new consequence)
      (match alternative with
      | some statements => some (renameIn old new statements)
      | none => none)
  | .function parameters body =>
    .function (parameters.map (renameName old new)) (renameIn old new body)
  | .call callee given => .call (callee.rename old new) (renameAmong old new given)

/-- Expressions with a new name. -/
def renameAmong (old new : String) : List Expression → List Expression
  | [] => []
  | first :: rest => first.rename old new :: renameAmong old new rest

/-- A statement with a new name. -/
def Statement.rename (old new : String) : Statement → Statement
  | .binding name value => .binding (renameName old new name) (value.rename old new)
  | .returning none => .returning none
  | .returning (some value) => .returning (some (value.rename old new))
  | .expression value => .expression (value.rename old new)

/-- Statements with a new name. -/
def renameIn (old new : String) : List Statement → List Statement
  | [] => []
  | first :: rest => first.rename old new :: renameIn old new rest

end

/-! ### Replacing an expression -/

section Replacing

variable (replaced replacement : Expression)

mutual

/-- The second expression is the first one with an expression replaced by another one in some of
the places where it stands. -/
inductive ExpressionReplaces : Expression → Expression → Prop
  | here : ExpressionReplaces replaced replacement
  | identifier (name : String) : ExpressionReplaces (.identifier name) (.identifier name)
  | integer (value : Int64) : ExpressionReplaces (.integer value) (.integer value)
  | boolean (value : Bool) : ExpressionReplaces (.boolean value) (.boolean value)
  | prefixed {operand operand' : Expression} (operator : PrefixOperator)
      (inner : ExpressionReplaces operand operand') :
    ExpressionReplaces (.prefixed operator operand) (.prefixed operator operand')
  | infixed {left left' right right' : Expression} (operator : InfixOperator)
      (first : ExpressionReplaces left left') (second : ExpressionReplaces right right') :
    ExpressionReplaces (.infixed left operator right) (.infixed left' operator right')
  | conditional {condition condition' : Expression} {consequence consequence' : List Statement}
      (asked : ExpressionReplaces condition condition')
      (yes : StatementsReplace consequence consequence') :
    ExpressionReplaces (.conditional condition consequence none)
      (.conditional condition' consequence' none)
  | alternative {condition condition' : Expression}
      {consequence consequence' otherwise otherwise' : List Statement}
      (asked : ExpressionReplaces condition condition')
      (yes : StatementsReplace consequence consequence')
      (no : StatementsReplace otherwise otherwise') :
    ExpressionReplaces (.conditional condition consequence (some otherwise))
      (.conditional condition' consequence' (some otherwise'))
  | function {body body' : List Statement} (parameters : List String)
      (inner : StatementsReplace body body') :
    ExpressionReplaces (.function parameters body) (.function parameters body')
  | call {callee callee' : Expression} {given given' : List Expression}
      (called : ExpressionReplaces callee callee') (arguments : ExpressionsReplace given given') :
    ExpressionReplaces (.call callee given) (.call callee' given')

/-- The same for expressions in a row. -/
inductive ExpressionsReplace : List Expression → List Expression → Prop
  | nil : ExpressionsReplace [] []
  | cons {first first' : Expression} {rest rest' : List Expression}
      (one : ExpressionReplaces first first') (others : ExpressionsReplace rest rest') :
    ExpressionsReplace (first :: rest) (first' :: rest')

/-- The same for a statement. -/
inductive StatementReplaces : Statement → Statement → Prop
  | binding {value value' : Expression} (name : String) (inner : ExpressionReplaces value value') :
    StatementReplaces (.binding name value) (.binding name value')
  | bareReturn : StatementReplaces (.returning none) (.returning none)
  | returning {value value' : Expression} (inner : ExpressionReplaces value value') :
    StatementReplaces (.returning (some value)) (.returning (some value'))
  | expression {value value' : Expression} (inner : ExpressionReplaces value value') :
    StatementReplaces (.expression value) (.expression value')

/-- The same for statements in a row. -/
inductive StatementsReplace : List Statement → List Statement → Prop
  | nil : StatementsReplace [] []
  | cons {first first' : Statement} {rest rest' : List Statement}
      (one : StatementReplaces first first') (others : StatementsReplace rest rest') :
    StatementsReplace (first :: rest) (first' :: rest')

end

variable {replaced replacement}

mutual

/-- No place at all may be chosen. -/
theorem ExpressionReplaces.refl : ∀ piece, ExpressionReplaces replaced replacement piece piece
  | .identifier name => .identifier name
  | .integer value => .integer value
  | .boolean value => .boolean value
  | .prefixed operator operand => .prefixed operator (.refl operand)
  | .infixed left operator right => .infixed operator (.refl left) (.refl right)
  | .conditional condition consequence none => .conditional (.refl condition) (.refl consequence)
  | .conditional condition consequence (some otherwise) =>
    .alternative (.refl condition) (.refl consequence) (.refl otherwise)
  | .function parameters body => .function parameters (.refl body)
  | .call callee given => .call (.refl callee) (.refl given)

theorem ExpressionsReplace.refl : ∀ pieces, ExpressionsReplace replaced replacement pieces pieces
  | [] => .nil
  | first :: rest => .cons (.refl first) (.refl rest)

theorem StatementReplaces.refl : ∀ piece, StatementReplaces replaced replacement piece piece
  | .binding name value => .binding name (.refl value)
  | .returning none => .bareReturn
  | .returning (some value) => .returning (.refl value)
  | .expression value => .expression (.refl value)

theorem StatementsReplace.refl : ∀ pieces, StatementsReplace replaced replacement pieces pieces
  | [] => .nil
  | first :: rest => .cons (.refl first) (.refl rest)

end

end Replacing

/-! ### Regions -/

/-- A function literal, one of its parameters and a new name for it. -/
structure ParameterRenaming where
  parameters : List String
  body : List Statement
  old : String
  new : String
  parameter : old ∈ parameters
  fresh : new ∉ (Expression.function parameters body).names

/-- Where a piece of syntax stands, or where a scope was opened. -/
inductive Region where
  | outside
  | inside
deriving DecidableEq

namespace ParameterRenaming

variable (plan : ParameterRenaming)

abbrev literal : Expression :=
  .function plan.parameters plan.body

/-- The literal with the new name. -/
def renamed : Expression :=
  plan.literal.rename plan.old plan.new

/-- What becomes of a name. -/
def name : Region → String → String
  | .outside, name => name
  | .inside, name => renameName plan.old plan.new name

/-- A name that can stand in a region. -/
def Free (region : Region) (name : String) : Prop :=
  region = .inside → name ≠ plan.new

/-- What lies inside stays there up to the scope that binds the old name. -/
def Around (region around : Region) (names : List String) : Prop :=
  (region = .outside → around = .outside) ∧
    (region = .inside → plan.old ∈ names ∨ around = .inside)

def Outermost (region : Region) (names : List String) : Prop :=
  region = .inside → plan.old ∈ names

/-- What becomes of an expression. -/
def OfExpression : Region → Expression → Expression → Prop
  | .outside, piece, piece' => ExpressionReplaces plan.literal plan.renamed piece piece'
  | .inside, piece, piece' =>
    piece' = piece.rename plan.old plan.new ∧ plan.new ∉ piece.names

def OfExpressions : Region → List Expression → List Expression → Prop
  | .outside, pieces, pieces' => ExpressionsReplace plan.literal plan.renamed pieces pieces'
  | .inside, pieces, pieces' =>
    pieces' = renameAmong plan.old plan.new pieces ∧ plan.new ∉ namesAmong pieces

/-- What becomes of a statement. -/
def OfStatement : Region → Statement → Statement → Prop
  | .outside, piece, piece' => StatementReplaces plan.literal plan.renamed piece piece'
  | .inside, piece, piece' =>
    piece' = piece.rename plan.old plan.new ∧ plan.new ∉ piece.names

def OfStatements : Region → List Statement → List Statement → Prop
  | .outside, pieces, pieces' => StatementsReplace plan.literal plan.renamed pieces pieces'
  | .inside, pieces, pieces' =>
    pieces' = renameIn plan.old plan.new pieces ∧ plan.new ∉ namesIn pieces

variable {plan} {region : Region}

/-- Names that can stand in a region stay different. -/
theorem name_inj {first second : String} (one : plan.Free region first)
    (other : plan.Free region second) :
    plan.name region first = plan.name region second ↔ first = second := by
  cases region with
  | outside => exact Iff.rfl
  | inside =>
    have := one rfl
    have := other rfl
    unfold name renameName
    grind

theorem around_self (region : Region) (names : List String) : plan.Around region region names :=
  ⟨id, .inr⟩

theorem around_bind {around : Region} {names wider : List String}
    (border : plan.Around region around names) (subset : names ⊆ wider) :
    plan.Around region around wider :=
  ⟨border.1, fun inside => (border.2 inside).imp_left fun bound => subset bound⟩

theorem outermost_bind {names wider : List String} (border : plan.Outermost region names)
    (subset : names ⊆ wider) : plan.Outermost region wider :=
  fun inside => subset (border inside)

/-- The new name stands in place of the old one only. -/
theorem name_of_ne {other : String} (different : other ≠ plan.old) :
    plan.name region other = other := by
  cases region with
  | outside => rfl
  | inside => exact if_neg different

theorem name_around {around : Region} {names : List String} {other : String}
    (border : plan.Around region around names) (unbound : other ∉ names)
    (free : plan.Free region other) :
    plan.Free around other ∧ plan.name around other = plan.name region other := by
  cases around with
  | inside =>
    cases region with
    | inside => exact ⟨free, rfl⟩
    | outside => cases border.1 rfl
  | outside =>
    refine ⟨nofun, ?_⟩
    cases region with
    | outside => rfl
    | inside =>
      obtain bound | within := border.2 rfl
      · exact (name_of_ne (ne_of_mem_of_not_mem bound unbound).symm).symm
      · cases within

theorem name_outermost {names : List String} {other : String} (border : plan.Outermost region names)
    (unbound : other ∉ names) : plan.name region other = other := by
  cases region with
  | outside => rfl
  | inside => exact name_of_ne (ne_of_mem_of_not_mem (border rfl) unbound).symm

/-! ### Pieces of syntax -/

theorem of_identifier {name : String} {piece' : Expression}
    (becomes : plan.OfExpression region (.identifier name) piece') :
    piece' = .identifier (plan.name region name) ∧ plan.Free region name := by
  cases region with
  | outside =>
    cases becomes
    exact ⟨rfl, nofun⟩
  | inside =>
    obtain ⟨rfl, fresh⟩ := becomes
    exact ⟨rfl, fun _ same => fresh (List.mem_singleton.mpr same.symm)⟩

theorem of_integer {value : Int64} {piece' : Expression}
    (becomes : plan.OfExpression region (.integer value) piece') : piece' = .integer value := by
  cases region with
  | outside =>
    cases becomes
    rfl
  | inside => exact becomes.1

theorem of_boolean {value : Bool} {piece' : Expression}
    (becomes : plan.OfExpression region (.boolean value) piece') : piece' = .boolean value := by
  cases region with
  | outside =>
    cases becomes
    rfl
  | inside => exact becomes.1

theorem of_prefixed {operator : PrefixOperator} {operand piece' : Expression}
    (becomes : plan.OfExpression region (.prefixed operator operand) piece') :
    ∃ operand', piece' = .prefixed operator operand' ∧
      plan.OfExpression region operand operand' := by
  cases region with
  | outside =>
    cases becomes with
    | prefixed _ inner => exact ⟨_, rfl, inner⟩
  | inside => exact ⟨_, becomes.1, rfl, becomes.2⟩

theorem of_infixed {left right piece' : Expression} {operator : InfixOperator}
    (becomes : plan.OfExpression region (.infixed left operator right) piece') :
    ∃ left' right', piece' = .infixed left' operator right' ∧
      plan.OfExpression region left left' ∧ plan.OfExpression region right right' := by
  cases region with
  | outside =>
    cases becomes with
    | infixed _ first second => exact ⟨_, _, rfl, first, second⟩
  | inside =>
    obtain ⟨rfl, fresh⟩ := becomes
    obtain ⟨first, second⟩ := not_or.mp (mt List.mem_append.mpr fresh)
    exact ⟨_, _, rfl, ⟨rfl, first⟩, ⟨rfl, second⟩⟩

theorem of_conditional {condition piece' : Expression} {consequence : List Statement}
    (becomes : plan.OfExpression region (.conditional condition consequence none) piece') :
    ∃ condition' consequence', piece' = .conditional condition' consequence' none ∧
      plan.OfExpression region condition condition' ∧
      plan.OfStatements region consequence consequence' := by
  cases region with
  | outside =>
    cases becomes with
    | conditional asked yes => exact ⟨_, _, rfl, asked, yes⟩
  | inside =>
    obtain ⟨rfl, fresh⟩ := becomes
    simp only [Expression.names, List.append_nil, List.mem_append, not_or] at fresh
    exact ⟨_, _, rfl, ⟨rfl, fresh.1⟩, ⟨rfl, fresh.2⟩⟩

theorem of_alternative {condition piece' : Expression} {consequence otherwise : List Statement}
    (becomes : plan.OfExpression region (.conditional condition consequence (some otherwise))
      piece') :
    ∃ condition' consequence' otherwise',
      piece' = .conditional condition' consequence' (some otherwise') ∧
        plan.OfExpression region condition condition' ∧
        plan.OfStatements region consequence consequence' ∧
        plan.OfStatements region otherwise otherwise' := by
  cases region with
  | outside =>
    cases becomes with
    | alternative asked yes no => exact ⟨_, _, _, rfl, asked, yes, no⟩
  | inside =>
    obtain ⟨rfl, fresh⟩ := becomes
    simp only [Expression.names, List.mem_append, not_or] at fresh
    exact ⟨_, _, _, rfl, ⟨rfl, fresh.1⟩, ⟨rfl, fresh.2.1⟩, ⟨rfl, fresh.2.2⟩⟩

theorem of_call {callee piece' : Expression} {given : List Expression}
    (becomes : plan.OfExpression region (.call callee given) piece') :
    ∃ callee' given', piece' = .call callee' given' ∧
      plan.OfExpression region callee callee' ∧ plan.OfExpressions region given given' := by
  cases region with
  | outside =>
    cases becomes with
    | call called arguments => exact ⟨_, _, rfl, called, arguments⟩
  | inside =>
    obtain ⟨rfl, fresh⟩ := becomes
    obtain ⟨first, second⟩ := not_or.mp (mt List.mem_append.mpr fresh)
    exact ⟨_, _, rfl, ⟨rfl, first⟩, ⟨rfl, second⟩⟩

/-- A function literal is taken as one of its region, or it is the one whose parameter is renamed,
and then its body is inside. -/
theorem of_function {parameters : List String} {body : List Statement} {piece' : Expression}
    (becomes : plan.OfExpression region (.function parameters body) piece') :
    ∃ within body', piece' = .function (parameters.map (plan.name within)) body' ∧
      plan.OfStatements within body body' ∧ (∀ name ∈ parameters, plan.Free within name) ∧
      plan.Around within region parameters := by
  have inside : ∀ {parameters body}, plan.new ∉ (Expression.function parameters body).names →
      ∃ body', (Expression.function parameters body).rename plan.old plan.new =
          .function (parameters.map (plan.name .inside)) body' ∧
        plan.OfStatements .inside body body' ∧
        ∀ name ∈ parameters, plan.Free .inside name := by
    intro parameters body fresh
    obtain ⟨free, others⟩ := not_or.mp (mt List.mem_append.mpr fresh)
    exact ⟨_, rfl, ⟨rfl, others⟩, fun name member _ same => free (same ▸ member)⟩
  cases region with
  | outside =>
    cases becomes with
    | here =>
      obtain ⟨body', same, within, free⟩ := inside plan.fresh
      exact ⟨.inside, body', same, within, free, nofun, fun _ => .inl plan.parameter⟩
    | function _ inner =>
      have same : parameters = parameters.map (plan.name .outside) := (List.map_id _).symm
      exact ⟨.outside, _, by rw [← same], inner, fun _ _ => nofun, around_self _ _⟩
  | inside =>
    obtain ⟨rfl, fresh⟩ := becomes
    obtain ⟨body', same, within, free⟩ := inside fresh
    exact ⟨.inside, body', same, within, free, around_self _ _⟩

theorem of_no_expressions {pieces' : List Expression}
    (becomes : plan.OfExpressions region [] pieces') : pieces' = [] := by
  cases region with
  | outside =>
    cases becomes
    rfl
  | inside => exact becomes.1

theorem of_expressions {first : Expression} {rest pieces' : List Expression}
    (becomes : plan.OfExpressions region (first :: rest) pieces') :
    ∃ first' rest', pieces' = first' :: rest' ∧ plan.OfExpression region first first' ∧
      plan.OfExpressions region rest rest' := by
  cases region with
  | outside =>
    cases becomes with
    | cons one others => exact ⟨_, _, rfl, one, others⟩
  | inside =>
    obtain ⟨rfl, fresh⟩ := becomes
    obtain ⟨one, others⟩ := not_or.mp (mt List.mem_append.mpr fresh)
    exact ⟨_, _, rfl, ⟨rfl, one⟩, ⟨rfl, others⟩⟩

theorem of_binding {name : String} {value : Expression} {piece' : Statement}
    (becomes : plan.OfStatement region (.binding name value) piece') :
    ∃ value', piece' = .binding (plan.name region name) value' ∧
      plan.Free region name ∧ plan.OfExpression region value value' := by
  cases region with
  | outside =>
    cases becomes with
    | binding _ inner => exact ⟨_, rfl, nofun, inner⟩
  | inside =>
    obtain ⟨rfl, fresh⟩ := becomes
    obtain ⟨free, others⟩ := not_or.mp (mt List.mem_cons.mpr fresh)
    exact ⟨_, rfl, fun _ same => free same.symm, rfl, others⟩

theorem of_bareReturn {piece' : Statement}
    (becomes : plan.OfStatement region (.returning none) piece') :
    piece' = .returning none := by
  cases region with
  | outside =>
    cases becomes
    rfl
  | inside => exact becomes.1

theorem of_returning {value : Expression} {piece' : Statement}
    (becomes : plan.OfStatement region (.returning (some value)) piece') :
    ∃ value', piece' = .returning (some value') ∧ plan.OfExpression region value value' := by
  cases region with
  | outside =>
    cases becomes with
    | returning inner => exact ⟨_, rfl, inner⟩
  | inside => exact ⟨_, becomes.1, rfl, becomes.2⟩

theorem of_expression {value : Expression} {piece' : Statement}
    (becomes : plan.OfStatement region (.expression value) piece') :
    ∃ value', piece' = .expression value' ∧ plan.OfExpression region value value' := by
  cases region with
  | outside =>
    cases becomes with
    | expression inner => exact ⟨_, rfl, inner⟩
  | inside => exact ⟨_, becomes.1, rfl, becomes.2⟩

theorem of_no_statements {pieces' : List Statement}
    (becomes : plan.OfStatements region [] pieces') : pieces' = [] := by
  cases region with
  | outside =>
    cases becomes
    rfl
  | inside => exact becomes.1

theorem of_statements {first : Statement} {rest pieces' : List Statement}
    (becomes : plan.OfStatements region (first :: rest) pieces') :
    ∃ first' rest', pieces' = first' :: rest' ∧ plan.OfStatement region first first' ∧
      plan.OfStatements region rest rest' := by
  cases region with
  | outside =>
    cases becomes with
    | cons one others => exact ⟨_, _, rfl, one, others⟩
  | inside =>
    obtain ⟨rfl, fresh⟩ := becomes
    obtain ⟨one, others⟩ := not_or.mp (mt List.mem_append.mpr fresh)
    exact ⟨_, _, rfl, ⟨rfl, one⟩, ⟨rfl, others⟩⟩

variable (plan)

/-- The renaming of the parameter of one literal. -/
def translation : Translation where
  Region := Region
  name := plan.name
  Free := plan.Free
  Around := plan.Around
  Outermost := plan.Outermost
  name_inj := name_inj
  around_bind := around_bind
  outermost_bind := outermost_bind
  name_around := name_around
  name_outermost := name_outermost
  OfExpression := plan.OfExpression
  OfExpressions := plan.OfExpressions
  OfStatement := plan.OfStatement
  OfStatements := plan.OfStatements
  of_identifier := of_identifier
  of_integer := of_integer
  of_boolean := of_boolean
  of_prefixed := of_prefixed
  of_infixed := of_infixed
  of_conditional := of_conditional
  of_alternative := of_alternative
  of_function := of_function
  of_call := of_call
  of_no_expressions := of_no_expressions
  of_expressions := of_expressions
  of_binding := of_binding
  of_bareReturn := of_bareReturn
  of_returning := of_returning
  of_expression := of_expression
  of_no_statements := of_no_statements
  of_statements becomes := .inl (of_statements becomes)

end ParameterRenaming

end Monkey
