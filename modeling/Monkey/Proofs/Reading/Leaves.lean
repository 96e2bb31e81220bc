/-
This file is about the leaves of syntax trees: the names in them and their integers.
A name enters a tree as the text of a token that is tagged as one, and an integer as
the value of a run of digits. So all that a reading has to keep is that it looks at
such tokens only, and it does so even where statements are given up.
-/

import Monkey.Proofs.Evaluation.Composition
import Monkey.Proofs.Grammar.Parsing
import Monkey.Proofs.Scanning.Lexical

namespace Monkey

/-! ### Leaves -/

/-- What a syntax tree is made of, apart from its shape. -/
inductive Leaf where
  | name (word : String)
  | integer (value : Int64)

mutual

/-- The names and integers in an expression, at all levels. -/
def Expression.leaves : Expression → List Leaf
  | .identifier name => [.name name]
  | .integer value => [.integer value]
  | .boolean _ => []
  | .prefixed _ operand => operand.leaves
  | .infixed left _ right => left.leaves ++ right.leaves
  | .conditional condition consequence none => condition.leaves ++ leavesOf consequence
  | .conditional condition consequence (some alternative) =>
    condition.leaves ++ (leavesOf consequence ++ leavesOf alternative)
  | .function parameters body => parameters.map Leaf.name ++ leavesOf body
  | .call callee given => callee.leaves ++ leavesAmong given

/-- The names and integers in some expressions. -/
def leavesAmong : List Expression → List Leaf
  | [] => []
  | first :: rest => first.leaves ++ leavesAmong rest

/-- The names and integers in a statement, with the name that it binds. -/
def Statement.leaves : Statement → List Leaf
  | .binding name value => .name name :: value.leaves
  | .returning none => []
  | .returning (some value) => value.leaves
  | .expression value => value.leaves

/-- The names and integers in some statements. -/
def leavesOf : List Statement → List Leaf
  | [] => []
  | first :: rest => first.leaves ++ leavesOf rest

end

/-- The names and integers in a program. -/
def Program.leaves (program : Program) : List Leaf :=
  leavesOf program.statements

/-- A leaf that can be written in a source. -/
def Leaf.Legal : Leaf → Prop
  | name word => IsName word
  | integer value => 0 ≤ value.toInt ∧ value.toInt ≤ Int64.maxValue.toInt

/-- All leaves are legal. -/
def AllLegal (leaves : List Leaf) : Prop :=
  ∀ leaf ∈ leaves, leaf.Legal

theorem allLegal_nil : AllLegal [] :=
  List.forall_mem_nil _

theorem AllLegal.append {first second : List Leaf} (one : AllLegal first) (two : AllLegal second) :
    AllLegal (first ++ second) :=
  List.forall_mem_append.mpr ⟨one, two⟩

theorem leavesOf_append (statements more : List Statement) :
    leavesOf (statements ++ more) = leavesOf statements ++ leavesOf more := by
  induction statements with
  | nil => rfl
  | cons first rest inductionHypothesis =>
    rw [List.cons_append, leavesOf, leavesOf, inductionHypothesis, List.append_assoc]

/-! ### Names that are bound -/

mutual

theorem Expression.boundNames_sublist : ∀ tree : Expression,
    (tree.boundNames.map Leaf.name).Sublist tree.leaves
  | .identifier _ | .integer _ | .boolean _ | .function _ _ => by
    unfold Expression.boundNames
    exact List.nil_sublist _
  | .prefixed _ operand => by
    unfold Expression.boundNames Expression.leaves
    exact operand.boundNames_sublist
  | .infixed left _ right => by
    unfold Expression.boundNames Expression.leaves
    rw [List.map_append]
    exact left.boundNames_sublist.append right.boundNames_sublist
  | .conditional condition consequence none => by
    unfold Expression.boundNames Expression.leaves
    rw [List.append_nil, List.map_append]
    exact condition.boundNames_sublist.append (namesBoundBy_sublist consequence)
  | .conditional condition consequence (some alternative) => by
    unfold Expression.boundNames Expression.leaves
    rw [List.map_append, List.map_append]
    exact condition.boundNames_sublist.append
      ((namesBoundBy_sublist consequence).append (namesBoundBy_sublist alternative))
  | .call callee given => by
    unfold Expression.boundNames Expression.leaves
    rw [List.map_append]
    exact callee.boundNames_sublist.append (namesBoundAmong_sublist given)

theorem namesBoundAmong_sublist : ∀ trees : List Expression,
    ((namesBoundAmong trees).map Leaf.name).Sublist (leavesAmong trees)
  | [] => by
    unfold namesBoundAmong
    exact List.nil_sublist _
  | first :: rest => by
    unfold namesBoundAmong leavesAmong
    rw [List.map_append]
    exact first.boundNames_sublist.append (namesBoundAmong_sublist rest)

theorem Statement.boundNames_sublist : ∀ statement : Statement,
    (statement.boundNames.map Leaf.name).Sublist statement.leaves
  | .binding name value => by
    unfold Statement.boundNames Statement.leaves
    exact value.boundNames_sublist.cons_cons (.name name)
  | .returning none => by
    unfold Statement.boundNames
    exact List.nil_sublist _
  | .returning (some value) => by
    unfold Statement.boundNames Statement.leaves
    exact value.boundNames_sublist
  | .expression value => by
    unfold Statement.boundNames Statement.leaves
    exact value.boundNames_sublist

/-- The names that are bound are among those that are written. -/
theorem namesBoundBy_sublist : ∀ statements : List Statement,
    ((namesBoundBy statements).map Leaf.name).Sublist (leavesOf statements)
  | [] => by
    unfold namesBoundBy
    exact List.nil_sublist _
  | first :: rest => by
    unfold namesBoundBy leavesOf
    rw [List.map_append]
    exact first.boundNames_sublist.append (namesBoundBy_sublist rest)

end

/-! ### Readings with good results -/

namespace Reading

variable {Result Following : Type} {Good : Result → Prop} {Fine : Following → Prop}

/-- Of lexical tokens, the reading leaves lexical tokens, and what it accepts is good. -/
def Yields (Good : Result → Prop) (reading : Reading Result) : Prop :=
  ∀ tokens outcome, (∀ token ∈ tokens, token.Lexical) → reading tokens = some outcome →
    (∀ token ∈ outcome.remaining, token.Lexical) ∧
      ∀ result noted rest, outcome = .accepted result noted rest → Good result

namespace Yields

theorem exhausted : Yields Good (exhausted : Reading Result) :=
  fun _ _ _ found => nomatch found

theorem pure {result : Result} (good : Good result) : Yields Good (pure result) := by
  intro tokens outcome lexical found
  cases found
  refine ⟨lexical, fun other noted rest same => ?_⟩
  cases same
  exact good

theorem reject (reported : Diagnostic) : Yields Good (reject reported : Reading Result) := by
  intro tokens outcome lexical found
  cases found
  exact ⟨lexical, nofun⟩

theorem upcoming : Yields (fun _ => True) upcoming := by
  intro tokens outcome lexical found
  cases found
  exact ⟨lexical, fun _ _ _ _ => trivial⟩

theorem advance : Yields Token.Lexical advance := by
  intro tokens outcome lexical found
  cases found
  refine ⟨fun token member => lexical token (List.mem_of_mem_tail member), ?_⟩
  intro token noted rest same
  cases same
  cases tokens with
  | nil => exact Token.lexical_endOfInput
  | cons first rest => exact lexical first List.mem_cons_self

theorem bind {first : Reading Result} {second : Result → Reading Following}
    (one : Yields Good first) (next : ∀ result, Good result → Yields Fine (second result)) :
    Yields Fine (first >>= second) := by
  intro tokens outcome lexical found
  obtain ⟨_, _, _, rejected, rfl⟩ | ⟨result, noted, rest, final, accepted, last, rfl⟩ :=
    bind_eq_some found
  · exact ⟨(one _ _ lexical rejected).1, nofun⟩
  · obtain ⟨remaining, good⟩ := one _ _ lexical accepted
    obtain ⟨left, fine⟩ := next result (good _ _ _ rfl) _ _ remaining last
    rw [Outcome.remaining_after]
    refine ⟨left, fun following more rest same => ?_⟩
    cases final with
    | accepted =>
      cases same
      exact fine _ _ _ rfl
    | rejected => cases same

theorem ite {condition : Prop} [Decidable condition] {first second : Reading Result}
    (holds : Yields Good first) (fails : Yields Good second) :
    Yields Good (if condition then first else second) := by
  split
  · exact holds
  · exact fails

/-- A token that is taken as expected has the expected tag. -/
theorem expect (expected : Tag) :
    Yields (fun token => token.tag = expected ∧ token.Lexical) (expect expected) := by
  intro tokens outcome lexical found
  unfold Reading.expect at found
  rw [upcoming_bind] at found
  split at found
  · rename_i same
    obtain ⟨left, good⟩ := advance _ _ lexical found
    cases found
    refine ⟨left, fun token noted rest taken => ?_⟩
    cases taken
    exact ⟨same, good _ _ _ rfl⟩
  · cases found
    exact ⟨lexical, nofun⟩

theorem skip (tag : Tag) : Yields (fun _ => True) (skip tag) :=
  upcoming.bind fun _ _ => (advance.bind fun _ _ => pure trivial).ite (pure trivial)

theorem attempt {piece : Reading Result} (yields : Yields Good piece) :
    Yields (fun found => ∀ result ∈ found, Good result) (attempt piece) := by
  intro tokens outcome lexical found
  unfold Reading.attempt at found
  split at found
  · cases found
  · rename_i accepted
    cases found
    obtain ⟨left, good⟩ := yields _ _ lexical accepted
    refine ⟨left, fun other noted rest same => ?_⟩
    cases same
    exact fun result member => Option.some.inj member ▸ good _ _ _ rfl
  · rename_i rejected
    cases found
    refine ⟨(yields _ _ lexical rejected).1, fun other noted rest same => ?_⟩
    cases same
    exact fun result member => nomatch member

end Yields

end Reading

open Reading

/-- What the readings of the pieces accept is made of legal leaves. -/
structure LegalReadings (readings : Readings) : Prop where
  names : Yields (fun names => ∀ name ∈ names, IsName name) readings.names
  operand : Yields (fun tree => AllLegal tree.leaves) readings.operand
  expression : ∀ floor, Yields (fun tree => AllLegal tree.leaves) (readings.expression floor)
  extension : ∀ floor left, AllLegal left.leaves →
    Yields (fun tree => AllLegal tree.leaves) (readings.extension floor left)
  arguments : Yields (fun given => AllLegal (leavesAmong given)) readings.arguments
  expressions : Yields (fun given => AllLegal (leavesAmong given)) readings.expressions
  block : Yields (fun statements => AllLegal (leavesOf statements)) readings.block
  statement : Yields (fun statement => AllLegal statement.leaves) readings.statement
  statements : Yields (fun statements => AllLegal (leavesOf statements)) readings.statements

namespace LegalReadings

theorem mute : LegalReadings .mute where
  names := .exhausted
  operand := .exhausted
  expression _ := .exhausted
  extension _ _ _ := .exhausted
  arguments := .exhausted
  expressions := .exhausted
  block := .exhausted
  statement := .exhausted
  statements := .exhausted

variable {inner : Readings} (legal : LegalReadings inner)
include legal

theorem parameters : Yields (fun names => ∀ name ∈ names, IsName name) inner.parameters :=
  Yields.upcoming.bind fun _ _ =>
    (Yields.advance.bind fun _ _ => .pure (List.forall_mem_nil _)).ite legal.names

theorem conditional : Yields (fun tree => AllLegal tree.leaves) inner.conditional := by
  refine (Yields.expect _).bind fun _ _ => (legal.expression _).bind fun condition first => ?_
  refine (Yields.expect _).bind fun _ _ => (Yields.expect _).bind fun _ _ => ?_
  refine legal.block.bind fun consequence second => Yields.upcoming.bind fun _ _ => .ite ?_ ?_
  · refine Yields.advance.bind fun _ _ => (Yields.expect _).bind fun _ _ => ?_
    refine legal.block.bind fun alternative third => .pure ?_
    unfold Expression.leaves
    exact first.append (second.append third)
  · refine .pure ?_
    unfold Expression.leaves
    exact first.append second

theorem function : Yields (fun tree => AllLegal tree.leaves) inner.function := by
  refine (Yields.expect _).bind fun _ _ => legal.parameters.bind fun names named => ?_
  refine (Yields.expect _).bind fun _ _ => legal.block.bind fun body inside => .pure ?_
  unfold Expression.leaves
  exact AllLegal.append (List.forall_mem_map.mpr named) inside

theorem operandAfter {token : Token} (lexical : token.Lexical) :
    Yields (fun tree => AllLegal tree.leaves) (inner.operandAfter token) := by
  have signed (operator : PrefixOperator) : Yields (fun tree : Expression => AllLegal tree.leaves)
      (do return .prefixed operator (← inner.expression .sign)) := by
    refine (legal.expression _).bind fun operand inside => .pure ?_
    unfold Expression.leaves
    exact inside
  have booleans (value : Bool) : AllLegal (Expression.boolean value).leaves := by
    unfold Expression.leaves
    exact allLegal_nil
  unfold Readings.operandAfter
  split
  · rename_i tagged
    refine .pure ?_
    unfold Expression.leaves
    exact List.forall_mem_singleton.mpr (lexical.name tagged)
  · rename_i tagged
    split
    · rename_i value read
      refine .pure ?_
      unfold Expression.leaves
      exact List.forall_mem_singleton.mpr ⟨lexical.integer value tagged read, value.toInt_le⟩
    · exact .reject _
  · exact .pure (booleans true)
  · exact .pure (booleans false)
  · exact signed .bang
  · exact signed .minus
  · exact (legal.expression _).bind fun tree inside => (Yields.expect _).bind fun _ _ =>
      .pure inside
  · exact legal.conditional
  · exact legal.function
  · exact .reject _

theorem extension_deeper (floor : Precedence) {left : Expression} (before : AllLegal left.leaves) :
    Yields (fun tree => AllLegal tree.leaves) (inner.deeper.extension floor left) := by
  refine Yields.upcoming.bind fun tag _ => .ite (Yields.advance.bind fun _ _ => ?_) (.pure before)
  split
  · refine (legal.expression _).bind fun right after => legal.extension _ _ ?_
    unfold Expression.leaves
    exact before.append after
  · refine legal.arguments.bind fun given after => legal.extension _ _ ?_
    unfold Expression.leaves
    exact before.append after

theorem binding : Yields (fun statement => AllLegal statement.leaves) inner.binding := by
  refine (Yields.expect _).bind fun name ⟨tagged, lexical⟩ => (Yields.expect _).bind fun _ _ => ?_
  refine (legal.expression _).bind fun value inside => (Yields.skip _).bind fun _ _ => .pure ?_
  unfold Statement.leaves
  exact List.forall_mem_cons.mpr ⟨lexical.name tagged, inside⟩

theorem returning : Yields (fun statement => AllLegal statement.leaves) inner.returning := by
  refine Yields.upcoming.bind fun _ _ => .ite ?_ ?_
  · refine (Yields.skip _).bind fun _ _ => .pure ?_
    unfold Statement.leaves
    exact allLegal_nil
  · refine (legal.expression _).bind fun value inside => (Yields.skip _).bind fun _ _ => .pure ?_
    unfold Statement.leaves
    exact inside

theorem statement_deeper :
    Yields (fun statement => AllLegal statement.leaves) inner.deeper.statement := by
  refine Yields.upcoming.bind fun tag _ => ?_
  split
  · exact Yields.advance.bind fun _ _ => legal.binding
  · exact Yields.advance.bind fun _ _ => legal.returning
  · refine (legal.expression _).bind fun value inside => (Yields.skip _).bind fun _ _ => .pure ?_
    unfold Statement.leaves
    exact inside

/-- An attempt at a statement adds the leaves of the statement, if there is one. -/
theorem attempted {others : Reading (List Statement)}
    (rest : Yields (fun statements => AllLegal (leavesOf statements)) others) :
    Yields (fun statements => AllLegal (leavesOf statements))
      (do let found ← attempt inner.statement; return found.toList ++ (← others)) := by
  refine legal.statement.attempt.bind fun found first => rest.bind fun statements more => .pure ?_
  rw [leavesOf_append]
  refine .append ?_ more
  cases found with
  | none => exact allLegal_nil
  | some statement =>
    show AllLegal (leavesOf [statement])
    rw [leavesOf, leavesOf, List.append_nil]
    exact first statement rfl

theorem deeper : LegalReadings inner.deeper where
  names := by
    refine (Yields.expect _).bind fun name ⟨tagged, lexical⟩ => Yields.upcoming.bind fun _ _ => ?_
    refine .ite (Yields.advance.bind fun _ _ => legal.names.bind fun names others => .pure ?_) ?_
    · exact List.forall_mem_cons.mpr ⟨lexical.name tagged, others⟩
    · exact (Yields.expect _).bind fun _ _ =>
        .pure (List.forall_mem_singleton.mpr (lexical.name tagged))
  operand := Yields.advance.bind fun _ lexical => legal.operandAfter lexical
  expression floor := legal.operand.bind fun left before => legal.extension floor left before
  extension floor left before := legal.extension_deeper floor before
  arguments := Yields.upcoming.bind fun _ _ =>
    (Yields.advance.bind fun _ _ => .pure (by unfold leavesAmong; exact allLegal_nil)).ite
      legal.expressions
  expressions := by
    refine (legal.expression _).bind fun first before => Yields.upcoming.bind fun _ _ => ?_
    refine .ite
      (Yields.advance.bind fun _ _ => legal.expressions.bind fun given after => .pure ?_) ?_
    · unfold leavesAmong
      exact before.append after
    · refine (Yields.expect _).bind fun _ _ => .pure ?_
      unfold leavesAmong leavesAmong
      rwa [List.append_nil]
  block := by
    have empty : AllLegal (leavesOf []) := by
      unfold leavesOf
      exact allLegal_nil
    refine Yields.upcoming.bind fun _ _ =>
      .ite ?_ (.ite (.pure empty) (legal.attempted legal.block))
    exact Yields.advance.bind fun _ _ => .pure empty
  statement := legal.statement_deeper
  statements := by
    refine Yields.upcoming.bind fun _ _ => .ite (.pure ?_) (legal.attempted legal.statements)
    unfold leavesOf
    exact allLegal_nil

end LegalReadings

theorem legalReadings_atDepth (depth : Nat) : LegalReadings (.atDepth depth) := by
  induction depth with
  | zero => exact .mute
  | succ depth inductionHypothesis => exact inductionHypothesis.deeper

/-- Whatever is read of a source, with diagnostics or without, is made of legal leaves. -/
theorem allLegal_parse (source : String) : AllLegal (Program.parse source).program.leaves := by
  obtain ⟨statements, noted, rest, found⟩ := statements_accepted (Token.scan source)
  have parsed : Program.parse source = ⟨⟨statements⟩, noted⟩ := ofTokens_eq _ found
  rw [unbounded_statements] at found
  obtain ⟨_, legal⟩ :=
    (legalReadings_atDepth _).statements _ _ (Token.lexical_scan source) found
  rw [parsed]
  exact legal _ _ _ rfl

end Monkey
