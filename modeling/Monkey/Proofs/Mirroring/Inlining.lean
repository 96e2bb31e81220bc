/-
This file says that a block which always runs may stand without its condition: a
block opens no scope. If a program has some of its statements `if (true) {...}`
replaced by the statements in the block, wherever they stand, then from the same
store it ends in the same way, whatever depth of calls it needs, and the same
names are bound to the same values in every scope; only in functions such
statements may be replaced.

An empty block is left alone, because it comes to null, and nothing in its place
comes to what was there before. An alternative is never run, so anything may stand
in it.

The statement that is replaced looked at the flag, so nothing may raise it.
-/

import Monkey.Proofs.Evaluation.Links
import Monkey.Proofs.Mirroring.Repetition

namespace Monkey

/-! ### Blocks in place of conditionals -/

mutual

/-- The second expression is the first one with blocks in place of some of the conditional
statements that always run them. -/
inductive ExpressionInlines : Expression → Expression → Prop
  | identifier (name : String) : ExpressionInlines (.identifier name) (.identifier name)
  | integer (value : Int64) : ExpressionInlines (.integer value) (.integer value)
  | boolean (value : Bool) : ExpressionInlines (.boolean value) (.boolean value)
  | prefixed {operand operand' : Expression} (operator : PrefixOperator)
      (inner : ExpressionInlines operand operand') :
    ExpressionInlines (.prefixed operator operand) (.prefixed operator operand')
  | infixed {left left' right right' : Expression} (operator : InfixOperator)
      (first : ExpressionInlines left left') (second : ExpressionInlines right right') :
    ExpressionInlines (.infixed left operator right) (.infixed left' operator right')
  | conditional {condition condition' : Expression} {consequence consequence' : List Statement}
      (asked : ExpressionInlines condition condition')
      (yes : StatementsInline consequence consequence') :
    ExpressionInlines (.conditional condition consequence none)
      (.conditional condition' consequence' none)
  | alternative {condition condition' : Expression}
      {consequence consequence' otherwise otherwise' : List Statement}
      (asked : ExpressionInlines condition condition')
      (yes : StatementsInline consequence consequence')
      (no : StatementsInline otherwise otherwise') :
    ExpressionInlines (.conditional condition consequence (some otherwise))
      (.conditional condition' consequence' (some otherwise'))
  | function {body body' : List Statement} (parameters : List String)
      (inner : StatementsInline body body') :
    ExpressionInlines (.function parameters body) (.function parameters body')
  | call {callee callee' : Expression} {given given' : List Expression}
      (called : ExpressionInlines callee callee') (arguments : ExpressionsInline given given') :
    ExpressionInlines (.call callee given) (.call callee' given')

/-- The same for expressions in a row. -/
inductive ExpressionsInline : List Expression → List Expression → Prop
  | nil : ExpressionsInline [] []
  | cons {first first' : Expression} {rest rest' : List Expression}
      (one : ExpressionInlines first first') (others : ExpressionsInline rest rest') :
    ExpressionsInline (first :: rest) (first' :: rest')

/-- The same for a statement that stays. -/
inductive StatementInlines : Statement → Statement → Prop
  | binding {value value' : Expression} (name : String) (inner : ExpressionInlines value value') :
    StatementInlines (.binding name value) (.binding name value')
  | bareReturn : StatementInlines (.returning none) (.returning none)
  | returning {value value' : Expression} (inner : ExpressionInlines value value') :
    StatementInlines (.returning (some value)) (.returning (some value'))
  | expression {value value' : Expression} (inner : ExpressionInlines value value') :
    StatementInlines (.expression value) (.expression value')

/-- The same for statements in a row. In the block that is put in place of a statement, others may
be replaced too. -/
inductive StatementsInline : List Statement → List Statement → Prop
  | nil : StatementsInline [] []
  | cons {first first' : Statement} {rest rest' : List Statement}
      (one : StatementInlines first first') (others : StatementsInline rest rest') :
    StatementsInline (first :: rest) (first' :: rest')
  | here {block block' rest rest' : List Statement} (otherwise : Option (List Statement))
      (filled : block ≠ []) (inner : StatementsInline block block')
      (others : StatementsInline rest rest') :
    StatementsInline (.expression (.conditional (.boolean true) block otherwise) :: rest)
      (block' ++ rest')

end

mutual

/-- No statement at all may be replaced. -/
theorem ExpressionInlines.refl : ∀ piece, ExpressionInlines piece piece
  | .identifier name => .identifier name
  | .integer value => .integer value
  | .boolean value => .boolean value
  | .prefixed operator operand => .prefixed operator (.refl operand)
  | .infixed left operator right => .infixed operator (.refl left) (.refl right)
  | .conditional condition consequence none => .conditional (.refl condition) (.refl consequence)
  | .conditional condition consequence (some otherwise) =>
    .alternative (.refl condition) (.refl consequence) (.refl otherwise)
  | .function parameters body => .function parameters (.refl body)
  | .call callee given => .call (.refl callee) (.refl given)

theorem ExpressionsInline.refl : ∀ pieces, ExpressionsInline pieces pieces
  | [] => .nil
  | first :: rest => .cons (.refl first) (.refl rest)

theorem StatementInlines.refl : ∀ piece, StatementInlines piece piece
  | .binding name value => .binding name (.refl value)
  | .returning none => .bareReturn
  | .returning (some value) => .returning (.refl value)
  | .expression value => .expression (.refl value)

theorem StatementsInline.refl : ∀ pieces, StatementsInline pieces pieces
  | [] => .nil
  | first :: rest => .cons (.refl first) (.refl rest)

end

/-- Something is left of statements, because only blocks with statements are put in their place. -/
theorem StatementsInline.ne_nil : ∀ {block block' : List Statement},
    StatementsInline block block' → block ≠ [] → block' ≠ []
  | _, _, .nil, filled => absurd rfl filled
  | _, _, .cons .., _ => List.cons_ne_nil _ _
  | _, _, .here _ filled inner _, _ => List.append_ne_nil_of_left_ne_nil (inner.ne_nil filled) _

/-! ### Side by side -/

/-- Names stay, and so do all other forms of syntax. -/
def Translation.inlining : Translation where
  toNaming := Translation.identity.toNaming
  splices := true
  OfExpression _ := ExpressionInlines
  OfExpressions _ := ExpressionsInline
  OfStatement _ := StatementInlines
  OfStatements _ := StatementsInline
  of_identifier | .identifier _ => ⟨rfl, trivial⟩
  of_integer | .integer _ => rfl
  of_boolean | .boolean _ => rfl
  of_prefixed | .prefixed _ inner => ⟨_, rfl, inner⟩
  of_infixed | .infixed _ first second => ⟨_, _, rfl, first, second⟩
  of_conditional | .conditional asked yes => ⟨_, _, rfl, asked, yes⟩
  of_alternative | .alternative asked yes no => ⟨_, _, _, rfl, asked, yes, no⟩
  of_function
    | .function parameters inner =>
      ⟨(), _, congrArg (Expression.function · _) (List.map_id' parameters).symm, inner,
        fun _ _ => trivial, trivial⟩
  of_call | .call called arguments => ⟨_, _, rfl, called, arguments⟩
  of_no_expressions | .nil => rfl
  of_expressions | .cons one others => ⟨_, _, rfl, one, others⟩
  of_binding | .binding _ inner => ⟨_, rfl, trivial, inner⟩
  of_bareReturn | .bareReturn => rfl
  of_returning | .returning inner => ⟨_, rfl, inner⟩
  of_expression | .expression inner => ⟨_, rfl, inner⟩
  of_no_statements | .nil => rfl
  of_statements
    | .cons one others => .inl ⟨_, _, rfl, one, others⟩
    | .here _ filled inner others =>
      .inr ⟨rfl, _, _, _, _, rfl, rfl, inner.ne_nil filled, inner, others⟩

/-- A run from the same store, in which scopes and closures keep their numbers. -/
def Mirror.inlining : Mirror :=
  { Translation.inlining with
    scope := id
    closure := id
    scopeMono := strictMono_id
    closureMono := strictMono_id }

theorem Mirror.fixes_inlining : Mirror.inlining.Fixes () where
  scope _ := rfl
  closure _ := rfl
  free _ := trivial
  name _ := rfl
  around _ := trivial
  outermost _ := trivial
  literal := .refl

/-- A scope and its mirror image bind alike values themselves. -/
theorem Mirror.Stores.own? {mirror : Mirror} {regions : List mirror.Region} {region : mirror.Region}
    {store store' : Store} (alike : mirror.Stores regions store store') {place : ScopeId}
    (known : regions[place]? = some region) {name : String} (free : mirror.Free region name) :
    Option.Rel (mirror.Values regions) (store.own? place name)
      (store'.own? (mirror.scope place) (mirror.name region name)) := by
  obtain ⟨found, found', present, present', scopes⟩ := alike.found place region known
  unfold Store.own?
  rw [present, present']
  exact scopes.find? free

/-! ### Without interruption -/

section

variable {Result : Type} {scope : ScopeId} {names : List String} {run : Run Result}
  {signal : Option Signal} {store final : Store} {result : Result} {left : Option Signal}

/-- Under a flag that nothing raises, a run gives nothing if it gives nothing without a flag. -/
theorem Run.Unraised.eq_none (unraised : Run.Unraised Result scope names run)
    (quiet : ∀ flag ∈ signal, flag.Quiet) (nothing : run ⟨store, none, none⟩ = none) :
    run ⟨store, signal, none⟩ = none := by
  obtain ⟨_, flagged⟩ | ⟨_, _, _, _, without, _⟩ := unraised.of_quiet quiet store
  · exact flagged
  · rw [nothing] at without
    cases without

/-- And it comes to what it comes to without one. -/
theorem Run.Unraised.eq_some (unraised : Run.Unraised Result scope names run)
    (quiet : ∀ flag ∈ signal, flag.Quiet)
    (found : run ⟨store, none, none⟩ = some (result, ⟨final, left, none⟩)) :
    ∃ left', run ⟨store, signal, none⟩ = some (result, ⟨final, left', none⟩) := by
  obtain ⟨without, _⟩ | ⟨_, _, left', _, without, flagged⟩ := unraised.of_quiet quiet store
  · rw [without] at found
    cases found
  · rw [without] at found
    cases found
    exact ⟨left', flagged⟩

end

/-! ### Programs -/

/-- One closure is the other one, made of its literal with blocks in place of conditionals. -/
structure Closure.Inlines (closure closure' : Closure) : Prop where
  identity : closure'.identity = closure.identity
  scope : closure'.scope = closure.scope
  literal : ExpressionInlines closure.literal closure'.literal

/-- Every scope binds the same names in both stores, to the same values up to blocks that stand
in place of conditionals in functions. -/
structure Store.Inlines (store store' : Store) : Prop where
  size : store'.scopes.size = store.scopes.size
  own : ∀ scope name, Option.Rel (Value.Like Closure.Inlines) (store.own? scope name)
    (store'.own? scope name)

namespace Mirror

variable {regions : List inlining.Region}

theorem inlines_of_closures {closure closure' : Closure}
    (alike : inlining.Closures regions closure closure') : closure.Inlines closure' := by
  obtain ⟨_, _, becomes⟩ := alike.literal
  exact ⟨alike.identity, alike.scope, becomes⟩

theorem inlines_of_stores {store store' : Store} (alike : inlining.Stores regions store store') :
    store.Inlines store' := by
  have size : store'.scopes.size = store.scopes.size := (alike.scopes 0).symm
  refine ⟨size, fun scope name => ?_⟩
  by_cases present : scope < store.scopes.size
  · have known := List.getElem?_eq_getElem (Nat.lt_of_lt_of_eq present alike.size.symm)
    have bound : Option.Rel (inlining.Values regions) (store.own? scope name)
        (store'.own? scope name) := alike.own? known trivial
    generalize store.own? scope name = value, store'.own? scope name = value' at bound
    cases bound with
    | none => exact .none
    | some one => exact .some (one.imp fun _ _ => inlines_of_closures)
  · have absent := Array.getElem?_eq_none (Nat.not_lt.mp present)
    have absent' := Array.getElem?_eq_none (Nat.not_lt.mp (size ▸ present))
    rw [Store.own?, Store.own?, absent, absent']
    exact .none

end Mirror

/-- If blocks stand in place of conditionals that always run them, then without interruption the
program ends exactly if it did before, in the same way, and it leaves the same scopes with the same
names bound to the same values, up to such blocks in functions. -/
theorem Program.run_inlined {program program' : Program}
    (inlines : StatementsInline program.statements program'.statements) (depth : Nat)
    {scope : ScopeId} {store : Store} (wellFormed : store.WellFormed)
    (present : scope < store.scopes.size) {signal : Option Signal}
    (quiet : ∀ flag ∈ signal, flag.Quiet) :
    (program.run depth scope ⟨store, signal, none⟩ = none ∧
      program'.run depth scope ⟨store, signal, none⟩ = none) ∨
    ∃ completion completion' final final' left left',
      program.run depth scope ⟨store, signal, none⟩ = some (completion, ⟨final, left, none⟩) ∧
      program'.run depth scope ⟨store, signal, none⟩ = some (completion', ⟨final', left', none⟩) ∧
      completion.Like Closure.Inlines completion' ∧ final.Inlines final' := by
  have unraised (any : Program) := Run.compositional_unraised.program any depth scope
  obtain ⟨nothing, nothing'⟩ | ⟨_, completion, completion', final, final', _, _, alike, stores,
    found, found'⟩ := Mirror.coupled_run Mirror.inlining program program' depth
    (Mirror.regionsOf_eq_some_iff.mpr ⟨present, rfl⟩) inlines _ List.prefix_rfl store store none
    (Mirror.fixes_inlining.stores wellFormed)
  · exact .inl ⟨(unraised program).eq_none quiet nothing,
      (unraised program').eq_none quiet nothing'⟩
  · obtain ⟨left, flagged⟩ := (unraised program).eq_some quiet found
    obtain ⟨left', flagged'⟩ := (unraised program').eq_some quiet found'
    exact .inr ⟨completion, completion', final, final', left, left', flagged, flagged',
      alike.imp fun _ _ => Mirror.inlines_of_closures, Mirror.inlines_of_stores stores⟩

/-- A function is made in a block within a block, and its body has a block too, which leaves it. -/
theorem Program.run_inlined_nested :
    let always (block : List Statement) : Statement :=
      .expression (.conditional (.boolean true) block none)
    let body : List Statement := [.returning (some (.identifier "n")), .expression (.integer 0)]
    let call : Statement := .expression (.call (.identifier "f") [.integer 3])
    let program : Program :=
      ⟨[always [always [.binding "f" (.function ["n"] [always body])], .binding "x" (.integer 2)],
        call]⟩
    let program' : Program :=
      ⟨[.binding "f" (.function ["n"] body), .binding "x" (.integer 2), call]⟩
    let store : Store := ⟨#[⟨[("x", .integer 1)], none⟩], 0⟩
    let signal : Signal := ⟨false, [false, false]⟩
    StatementsInline program.statements program'.statements ∧ store.WellFormed ∧
      0 < store.scopes.size ∧ signal.Quiet ∧
      (program.run 1 0 ⟨store, some signal, none⟩).isSome ∧
      ((program.run 1 0 ⟨store, some signal, none⟩ = none ∧
          program'.run 1 0 ⟨store, some signal, none⟩ = none) ∨
        ∃ completion completion' final final' left left',
          program.run 1 0 ⟨store, some signal, none⟩ = some (completion, ⟨final, left, none⟩) ∧
          program'.run 1 0 ⟨store, some signal, none⟩ =
            some (completion', ⟨final', left', none⟩) ∧
          completion.Like Closure.Inlines completion' ∧ final.Inlines final') := by
  intro always body call program program' store signal
  have inBody := StatementsInline.here none (List.cons_ne_nil _ _) (.refl body) .nil
  have inner := StatementsInline.here none (List.cons_ne_nil _ _)
    (.cons (.binding "f" (.function ["n"] inBody)) .nil) (.refl [.binding "x" (.integer 2)])
  have inlines : StatementsInline program.statements program'.statements :=
    StatementsInline.here none (List.cons_ne_nil _ _) inner (.refl [call])
  have wellFormed : store.WellFormed :=
    Store.wellFormed_single (List.forall_mem_singleton.mpr rfl) 0
  have quiet : signal.Quiet := ⟨rfl, by decide⟩
  have ends : (program.run 1 0 ⟨store, some signal, none⟩).isSome := by decide +kernel
  refine ⟨inlines, wellFormed, by decide, quiet, ends, ?_⟩
  exact Program.run_inlined inlines 1 wellFormed (by decide) (by rintro _ ⟨⟩; exact quiet)

end Monkey
