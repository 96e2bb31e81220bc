/-
This file runs a piece of syntax and what becomes of it side by side. If their
stores mirror each other, then both come to something or neither does; what they
come to is alike, their stores mirror each other again, and they have looked at
the flag equally often. This passes from the steps of a run to sequences of them,
and so to every piece of syntax.

A statement that gives way to the statements of its block is not run, and neither
is its look at the flag. Where that can happen runs are only compared without a
flag, and then a look is nothing.

The regions of the scopes that are there are never changed, so what is known of
a value stays known while scopes are opened.
-/

import Monkey.Proofs.Mirroring.Mirror

namespace Monkey.Mirror

variable (mirror : Mirror) {Result Following : Type}

/-! ### Runs side by side -/

/-- From stores that mirror each other, under every flag of a kind, both runs come to something
alike or to nothing. -/
def CoupledUnder (flag : Option Signal → Option Signal) (regions : List mirror.Region)
    (Alike : List mirror.Region → Result → Result → Prop) (run run' : Run Result) : Prop :=
  ∀ more, regions <+: more → ∀ store store' signal, mirror.Stores more store store' →
    (run ⟨store, flag signal, none⟩ = none ∧ run' ⟨store', flag signal, none⟩ = none) ∨
    ∃ last result result' final final' left, more <+: last ∧ Alike last result result' ∧
      mirror.Stores last final final' ∧
      run ⟨store, flag signal, none⟩ = some (result, ⟨final, flag left, none⟩) ∧
      run' ⟨store', flag signal, none⟩ = some (result', ⟨final', flag left, none⟩)

/-- The flag that both runs look at. There is none where they do not look equally often. -/
def flag (signal : Option Signal) : Option Signal :=
  bif mirror.splices then none else signal

abbrev Coupled (regions : List mirror.Region)
    (Alike : List mirror.Region → Result → Result → Prop) (run run' : Run Result) : Prop :=
  mirror.CoupledUnder mirror.flag regions Alike run run'

/-- The values of arguments, or the error in their place. -/
inductive Outcomes (regions : List mirror.Region) :
    Except Fault (List Value) → Except Fault (List Value) → Prop
  | ok {values values' : List Value} (alike : List.Forall₂ (mirror.Values regions) values values') :
    Outcomes regions (.ok values) (.ok values')
  | error (fault : Fault) : Outcomes regions (.error fault) (.error fault)

variable {mirror} {regions : List mirror.Region} {region : mirror.Region} {scope : ScopeId}

/-! ### Steps -/

theorem coupled_pure {Alike : List mirror.Region → Result → Result → Prop}
    {result result' : Result} (alike : ∀ more, regions <+: more → Alike more result result') :
    mirror.Coupled regions Alike (pure result) (pure result') :=
  fun more wider store store' signal stores => .inr ⟨more, result, result', store, store', signal,
    List.prefix_rfl, alike more wider, stores, rfl, rfl⟩

theorem Coupled.bind {First : List mirror.Region → Result → Result → Prop}
    {Second : List mirror.Region → Following → Following → Prop} {first first' : Run Result}
    {second second' : Result → Run Following} (coupled : mirror.Coupled regions First first first')
    (next : ∀ more, regions <+: more → ∀ result result', First more result result' →
      mirror.Coupled more Second (second result) (second' result')) :
    mirror.Coupled regions Second (first >>= second) (first' >>= second') := by
  intro more wider store store' signal stores
  obtain ⟨nothing, nothing'⟩ | ⟨last, result, result', final, final', left, further, alike, after,
    found, found'⟩ := coupled more wider store store' signal stores
  · exact .inl ⟨Run.bind_of_eq_none nothing, Run.bind_of_eq_none nothing'⟩
  · rw [Run.bind_of_eq_some found, Run.bind_of_eq_some found']
    obtain nothing | ⟨end', value, value', rest⟩ := next last (wider.trans further) result result'
      alike last List.prefix_rfl final final' left after
    · exact .inl nothing
    · obtain ⟨closing, closing', signal', longer, others⟩ := rest
      exact .inr ⟨end', value, value', closing, closing', signal', further.trans longer, others⟩

theorem coupled_exhausted {Alike : List mirror.Region → Result → Result → Prop} :
    mirror.Coupled regions Alike Run.exhausted Run.exhausted :=
  fun _ _ _ _ _ _ => .inl ⟨rfl, rfl⟩

/-- What is written down is not compared. -/
theorem coupled_note (event event' : Event) :
    mirror.Coupled regions (fun _ _ _ => True) (Run.note event) (Run.note event') :=
  fun more _ _ _ signal stores =>
    .inr ⟨more, (), (), _, _, signal, List.prefix_rfl, trivial, stores, rfl, rfl⟩

/-- A look finds the same in every store. -/
theorem look_flag (signal : Option Signal) : ∃ raised left, ∀ store,
    Run.look ⟨store, mirror.flag signal, none⟩ =
      some (raised, ⟨store, mirror.flag left, none⟩) := by
  unfold flag
  cases mirror.splices with
  | true => exact ⟨false, none, fun _ => rfl⟩
  | false =>
    cases signal with
    | none => exact ⟨false, none, fun _ => rfl⟩
    | some signal => exact ⟨_, some _, fun _ => rfl⟩

theorem coupled_look :
    mirror.Coupled regions (fun _ raised raised' => raised' = raised) Run.look Run.look := by
  intro more _ _ _ signal stores
  obtain ⟨raised, left, looked⟩ := look_flag signal
  exact .inr ⟨more, raised, raised, _, _, left, List.prefix_rfl, rfl, stores, looked _, looked _⟩

theorem coupled_fail (fault : Fault) :
    mirror.Coupled regions mirror.Values (Run.fail fault) (Run.fail fault) :=
  fun more _ _ _ signal stores => .inr ⟨more, _, _, _, _, signal, List.prefix_rfl, .error fault,
    stores, rfl, rfl⟩

/-- A name is found as what it became, and if it is not found, it was not renamed. -/
theorem coupled_find? (known : regions[scope]? = some region) {name : String}
    (free : mirror.Free region name) :
    mirror.Coupled regions (fun more found found' => Option.Rel (mirror.Values more) found found' ∧
      (found = none → mirror.name region name = name)) (Run.find? scope name)
      (Run.find? (mirror.scope scope) (mirror.name region name)) :=
  fun more wider _ _ signal stores => .inr ⟨more, _, _, _, _, signal, List.prefix_rfl,
    ⟨stores.get? (region_of_growth wider known) free,
      stores.name_of_unbound (region_of_growth wider known) free⟩, stores, rfl, rfl⟩

theorem coupled_bindName (known : regions[scope]? = some region) {name : String}
    (free : mirror.Free region name) {value value' : Value}
    (alike : mirror.Values regions value value') :
    mirror.Coupled regions (fun _ _ _ => True) (Run.bindName scope name value)
      (Run.bindName (mirror.scope scope) (mirror.name region name) value') :=
  fun more wider _ _ signal stores => .inr ⟨more, _, _, _, _, signal, List.prefix_rfl, trivial,
    stores.set (region_of_growth wider known) free (values_widen alike wider), rfl, rfl⟩

theorem coupled_capture (known : regions[scope]? = some region)
    {parameters parameters' : List String} {body body' : List Statement}
    (becomes : mirror.OfExpression region (.function parameters body)
      (.function parameters' body')) :
    mirror.Coupled regions mirror.Values (Run.capture scope parameters body)
      (Run.capture (mirror.scope scope) parameters' body') := by
  intro more wider store store' signal stores
  have alike : mirror.Closures more ⟨store.closures, parameters, body, scope⟩
      ⟨store'.closures, parameters', body', mirror.scope scope⟩ :=
    ⟨(stores.closures 0).symm, rfl, region, region_of_growth wider known, becomes⟩
  exact .inr ⟨more, _, _, _, _, signal, List.prefix_rfl, .function alike, stores.countClosure,
    rfl, rfl⟩

theorem coupled_settle {outcome : Except Fault Value}
    (alike : ∀ value, outcome = .ok value → ∀ more, mirror.Values more value value) :
    mirror.Coupled regions mirror.Values (Run.settle outcome) (Run.settle outcome) := by
  cases outcome with
  | ok value => exact coupled_pure fun more _ => alike value rfl more
  | error fault => exact coupled_fail fault

theorem coupled_branch {Alike : List mirror.Region → Result → Result → Prop}
    {condition condition' : Prop} [Decidable condition] [Decidable condition']
    (same : condition' ↔ condition) {first first' second second' : Run Result}
    (yes : mirror.Coupled regions Alike first first')
    (no : mirror.Coupled regions Alike second second') :
    mirror.Coupled regions Alike (if condition then first else second)
      (if condition' then first' else second') := by
  by_cases holds : condition
  · rwa [if_pos holds, if_pos (same.mpr holds)]
  · rwa [if_neg holds, if_neg (mt same.mp holds)]

theorem Coupled.thenWith {first first' : Run Value} {proceed proceed' : Value → Run Value}
    (coupled : mirror.Coupled regions mirror.Values first first')
    (next : ∀ more, regions <+: more → ∀ value value', mirror.Values more value value' →
      mirror.Coupled more mirror.Values (proceed value) (proceed' value')) :
    mirror.Coupled regions mirror.Values (Run.thenWith first proceed)
      (Run.thenWith first' proceed') :=
  coupled.bind fun more wider value value' alike => coupled_branch (by rw [alike.isError])
    (coupled_pure fun _ further => values_widen alike further) (next more wider value value' alike)

/-- Runs stay coupled after whatever they write down. -/
theorem coupled_noted {Alike : List mirror.Region → Result → Result → Prop} {event event' : Event}
    {run run' : Run Result}
    (next : ∀ more, regions <+: more → mirror.Coupled more Alike run run') :
    mirror.Coupled regions Alike
      (do
        Run.note event
        run)
      (do
        Run.note event'
        run') :=
  (coupled_note event event').bind fun more wider _ _ _ => next more wider

/-- What is done with an operand is coupled if it is for all operands that are alike. -/
theorem Coupled.operand {first first' : Run Value} {proceed proceed' : Value → Run Value}
    (coupled : mirror.Coupled regions mirror.Values first first')
    (next : ∀ more, regions <+: more → ∀ value value', mirror.Values more value value' →
      mirror.Coupled more mirror.Values (proceed value) (proceed' value')) :
    mirror.Coupled regions mirror.Values
      (Run.thenWith first fun value => do
        Run.note (.operand value)
        proceed value)
      (Run.thenWith first' fun value => do
        Run.note (.operand value)
        proceed' value) :=
  coupled.thenWith fun _ wider value value' alike => coupled_noted fun last further =>
    next last (wider.trans further) value value' (values_widen alike further)

/-- Statements are coupled where nothing interrupts them. -/
theorem coupled_guarded {event event' : Event} {run run' : Run Value}
    (next : ∀ more, regions <+: more → mirror.Coupled more mirror.Values run run') :
    mirror.Coupled regions mirror.Values
      (do
        if ← Run.look then Run.fail .interrupted
        else
          Run.note event
          run)
      (do
        if ← Run.look then Run.fail .interrupted
        else
          Run.note event'
          run') := by
  refine coupled_look.bind fun first wider raised _ same => ?_
  refine coupled_branch (by rw [same]) (coupled_fail _) ?_
  exact coupled_noted fun second further => next second (wider.trans further)

/-! ### Calls -/

/-- Calls of closures that are alike come to what is alike. -/
abbrev CallsCoupled (mirror : Mirror) (calling : Evaluation.Calling) : Prop :=
  ∀ regions closure closure' values values', mirror.Closures regions closure closure' →
    List.Forall₂ (mirror.Values regions) values values' →
      closure.parameters.length = values.length →
        mirror.Coupled regions mirror.Values (calling closure values) (calling closure' values')

variable {calling : Evaluation.Calling}

theorem Closures.parameters_length {closure closure' : Closure}
    (alike : mirror.Closures regions closure closure') :
    closure'.parameters.length = closure.parameters.length := by
  obtain ⟨region, known, becomes⟩ := alike.literal
  obtain ⟨within, body', same, _⟩ := mirror.of_function becomes
  obtain ⟨parameters, _⟩ := Expression.function.inj same
  rw [parameters, List.length_map]

theorem coupled_application (calls : CallsCoupled mirror calling) {callee callee' : Value}
    {values values' : List Value} (called : mirror.Values regions callee callee')
    (given : List.Forall₂ (mirror.Values regions) values values') :
    mirror.Coupled regions mirror.Values (Evaluation.apply calling callee values)
      (Evaluation.apply calling callee' values') := by
  refine coupled_noted fun first wider => ?_
  cases called with
  | @function closure closure' alike =>
    have lengths := alike.parameters_length
    have counts := given.length_eq
    simp only [lengths, ← counts]
    by_cases enough : closure.parameters.length = values.length
    · rw [if_neg (not_not.mpr enough), if_neg (not_not.mpr enough)]
      refine coupled_look.bind fun second further raised raised' same => ?_
      refine coupled_branch (by rw [same]) (coupled_fail _) ?_
      have longer := wider.trans further
      exact calls second closure closure' values values' (alike.widen longer)
        (List.Forall₂.imp (fun _ _ one => values_widen one longer) given) enough
    · rw [if_pos enough, if_pos enough]
      exact coupled_fail _
  | integer | boolean | null | returned | error => exact coupled_fail _

/-! ### Pieces of syntax -/

/-- Without a flag, a conditional statement that always runs its block is the block. -/
theorem statement_always (scope : ScopeId) (block : List Statement)
    (otherwise : Option (List Statement)) (store : Store) :
    Evaluation.statement calling scope (.expression (.conditional (.boolean true) block otherwise))
        ⟨store, none, none⟩ =
      Evaluation.statements calling scope .null block ⟨store, none, none⟩ := by
  unfold Evaluation.statement Evaluation.expression Evaluation.expression
  rfl

/-- Where there is no flag, the block may be run in place of the statement. -/
theorem coupled_spliced (splices : mirror.splices = true) {block rest : List Statement}
    {otherwise : Option (List Statement)} {latest : Value} {run' : Run Value}
    (coupled : mirror.Coupled regions mirror.Values
      (do
        let value ← Evaluation.statements calling scope .null block
        if value.isExit then return value else Evaluation.statements calling scope value rest)
      run') :
    mirror.Coupled regions mirror.Values (Evaluation.statements calling scope latest
      (.expression (.conditional (.boolean true) block otherwise) :: rest)) run' := by
  intro more wider store store' signal stores
  have unseen : mirror.flag signal = none := by rw [flag, splices, cond_true]
  have same : Evaluation.statements calling scope latest
      (.expression (.conditional (.boolean true) block otherwise) :: rest)
        ⟨store, mirror.flag signal, none⟩ =
      (do
        let value ← Evaluation.statements calling scope .null block
        if value.isExit then return value else Evaluation.statements calling scope value rest)
        ⟨store, mirror.flag signal, none⟩ := by
    rw [unseen, Evaluation.statements]
    exact congrArg (Option.bind · _) (statement_always scope block otherwise store)
  rw [same]
  exact coupled more wider store store' signal stores

mutual

theorem coupled_expression (calls : CallsCoupled mirror calling) : ∀ piece {piece' : Expression}
    {regions : List mirror.Region} {region : mirror.Region} {scope : ScopeId},
    regions[scope]? = some region → mirror.OfExpression region piece piece' →
      mirror.Coupled regions mirror.Values (Evaluation.expression calling scope piece)
        (Evaluation.expression calling (mirror.scope scope) piece')
  | .identifier name, _, _, _, _, known, becomes => by
    obtain ⟨rfl, free⟩ := mirror.of_identifier becomes
    unfold Evaluation.expression
    refine coupled_noted fun _ wider => ?_
    refine (coupled_find? (region_of_growth wider known) free).bind ?_
    rintro _ _ found found' ⟨alike, unchanged⟩
    cases alike with
    | some one => exact coupled_pure fun _ further => values_widen one further
    | none =>
      simp only [unchanged rfl]
      exact coupled_fail _
  | .integer value, _, _, _, _, _, becomes => by
    obtain rfl := mirror.of_integer becomes
    unfold Evaluation.expression
    exact coupled_noted fun _ _ => coupled_pure fun _ _ => .integer value
  | .boolean value, _, _, _, _, _, becomes => by
    obtain rfl := mirror.of_boolean becomes
    unfold Evaluation.expression
    exact coupled_noted fun _ _ => coupled_pure fun _ _ => .boolean value
  | .prefixed operator operand, _, _, _, _, known, becomes => by
    obtain ⟨operand', rfl, inner⟩ := mirror.of_prefixed becomes
    unfold Evaluation.expression
    refine coupled_noted fun _ wider => ?_
    have ofOperand := coupled_expression calls operand (region_of_growth wider known) inner
    refine ofOperand.operand fun _ _ value value' alike => ?_
    rw [alike.prefix_apply]
    exact coupled_settle fun _ applied _ => .of_plain (PrefixOperator.apply_eq_ok applied)
  | .infixed left operator right, _, _, _, _, known, becomes => by
    obtain ⟨left', right', rfl, one, other⟩ := mirror.of_infixed becomes
    unfold Evaluation.expression
    refine coupled_noted fun _ wider => ?_
    have known := region_of_growth wider known
    refine (coupled_expression calls left known one).operand fun _ wider _ _ alike => ?_
    have known := region_of_growth wider known
    refine (coupled_expression calls right known other).operand fun _ further _ _ same => ?_
    rw [Value.Like.infix_apply identifies (values_widen alike further) same]
    exact coupled_settle fun _ applied _ => .of_plain (InfixOperator.apply_eq_ok applied)
  | .conditional condition consequence none, _, _, _, _, known, becomes => by
    obtain ⟨condition', consequence', rfl, asked, yes⟩ := mirror.of_conditional becomes
    unfold Evaluation.expression
    refine coupled_noted fun _ wider => ?_
    have known := region_of_growth wider known
    refine (coupled_expression calls condition known asked).operand fun _ wider _ _ alike => ?_
    have ofYes := coupled_statements calls consequence (fun _ _ => .null)
      (region_of_growth wider known) yes
    exact coupled_branch (by rw [alike.isTruthy]) ofYes (coupled_pure fun _ _ => .null)
  | .conditional condition consequence (some otherwise), _, _, _, _, known, becomes => by
    obtain ⟨condition', consequence', otherwise', rfl, asked, yes, no⟩ :=
      mirror.of_alternative becomes
    unfold Evaluation.expression
    refine coupled_noted fun _ wider => ?_
    have known := region_of_growth wider known
    refine (coupled_expression calls condition known asked).operand fun _ wider _ _ alike => ?_
    have known := region_of_growth wider known
    have ofYes := coupled_statements calls consequence (fun _ _ => .null) known yes
    have ofNo := coupled_statements calls otherwise (fun _ _ => .null) known no
    exact coupled_branch (by rw [alike.isTruthy]) ofYes ofNo
  | .function parameters body, _, _, _, _, known, becomes => by
    have whole := becomes
    obtain ⟨within, body', rfl, _⟩ := mirror.of_function becomes
    unfold Evaluation.expression
    exact coupled_noted fun _ wider => coupled_capture (region_of_growth wider known) whole
  | .call callee given, _, _, _, _, known, becomes => by
    obtain ⟨callee', given', rfl, called, arguments⟩ := mirror.of_call becomes
    unfold Evaluation.expression
    refine coupled_noted fun _ wider => ?_
    have known := region_of_growth wider known
    refine (coupled_expression calls callee known called).operand fun _ wider _ _ alike => ?_
    have known := region_of_growth wider known
    refine (coupled_arguments calls given known arguments).bind fun _ further _ _ outcomes => ?_
    cases outcomes with
    | ok values => exact coupled_application calls (values_widen alike further) values
    | error fault => exact coupled_pure fun _ _ => .error fault

theorem coupled_arguments (calls : CallsCoupled mirror calling) : ∀ pieces
    {pieces' : List Expression} {regions : List mirror.Region} {region : mirror.Region}
    {scope : ScopeId}, regions[scope]? = some region → mirror.OfExpressions region pieces pieces' →
      mirror.Coupled regions mirror.Outcomes (Evaluation.arguments calling scope pieces)
        (Evaluation.arguments calling (mirror.scope scope) pieces')
  | [], _, _, _, _, _, becomes => by
    obtain rfl := mirror.of_no_expressions becomes
    unfold Evaluation.arguments
    exact coupled_pure fun _ _ => .ok .nil
  | first :: rest, _, _, _, scope, known, becomes => by
    obtain ⟨first', rest', rfl, one, others⟩ := mirror.of_expressions becomes
    unfold Evaluation.arguments
    refine (coupled_expression calls first known one).bind fun more wider value value' alike => ?_
    have goesOn : mirror.Coupled more mirror.Outcomes
        (do
          match ← Evaluation.arguments calling scope rest with
          | .ok values => return .ok (value :: values)
          | .error fault => return .error fault)
        (do
          match ← Evaluation.arguments calling (mirror.scope scope) rest' with
          | .ok values => return .ok (value' :: values)
          | .error fault => return .error fault) := by
      have known := region_of_growth wider known
      refine (coupled_arguments calls rest known others).bind fun last further _ _ outcomes => ?_
      cases outcomes with
      | ok values =>
        exact coupled_pure fun _ longer => .ok (.cons (values_widen alike (further.trans longer))
          (List.Forall₂.imp (fun _ _ one => values_widen one longer) values))
      | error fault => exact coupled_pure fun _ _ => .error fault
    cases alike with
    | error fault => exact coupled_pure fun _ _ => .error fault
    | integer | boolean | null | function | returned => exact goesOn

theorem coupled_statement (calls : CallsCoupled mirror calling) : ∀ piece {piece' : Statement}
    {regions : List mirror.Region} {region : mirror.Region} {scope : ScopeId},
    regions[scope]? = some region → mirror.OfStatement region piece piece' →
      mirror.Coupled regions mirror.Values (Evaluation.statement calling scope piece)
        (Evaluation.statement calling (mirror.scope scope) piece')
  | .binding name value, _, _, _, _, known, becomes => by
    obtain ⟨value', rfl, free, inner⟩ := mirror.of_binding becomes
    unfold Evaluation.statement
    refine coupled_guarded fun _ wider => ?_
    have known := region_of_growth wider known
    refine (coupled_expression calls value known inner).thenWith fun _ further _ _ alike => ?_
    exact (coupled_bindName (region_of_growth further known) free alike).bind fun _ _ _ _ _ =>
      coupled_pure fun _ _ => .null
  | .returning none, _, _, _, _, _, becomes => by
    obtain rfl := mirror.of_bareReturn becomes
    unfold Evaluation.statement
    refine coupled_guarded fun _ _ => coupled_noted fun _ _ => ?_
    exact coupled_pure fun _ _ => .returned .null
  | .returning (some value), _, _, _, _, known, becomes => by
    obtain ⟨value', rfl, inner⟩ := mirror.of_returning becomes
    unfold Evaluation.statement
    refine coupled_guarded fun _ wider => ?_
    have known := region_of_growth wider known
    refine (coupled_expression calls value known inner).thenWith fun _ _ _ _ alike => ?_
    exact coupled_noted fun _ further => coupled_pure fun _ more =>
      .returned (values_widen alike (further.trans more))
  | .expression value, _, _, _, _, known, becomes => by
    obtain ⟨value', rfl, inner⟩ := mirror.of_expression becomes
    unfold Evaluation.statement
    exact coupled_guarded fun _ wider =>
      coupled_expression calls value (region_of_growth wider known) inner

theorem coupled_statements (calls : CallsCoupled mirror calling) : ∀ pieces
    {pieces' : List Statement} {regions : List mirror.Region} {region : mirror.Region}
    {scope : ScopeId} {latest latest' : Value},
    (∀ more, regions <+: more → mirror.Values more latest latest') →
    regions[scope]? = some region → mirror.OfStatements region pieces pieces' →
      mirror.Coupled regions mirror.Values (Evaluation.statements calling scope latest pieces)
        (Evaluation.statements calling (mirror.scope scope) latest' pieces')
  | [], _, _, _, _, _, _, alike, _, becomes => by
    obtain rfl := mirror.of_no_statements becomes
    unfold Evaluation.statements
    exact coupled_pure alike
  | first :: rest, _, regions, region, scope, _, _, _, known, becomes => by
    have goesOn {rest' : List Statement} (others : mirror.OfStatements region rest rest') more
        (wider : regions <+: more) value value' (alike : mirror.Values more value value') :
        mirror.Coupled more mirror.Values
          (if value.isExit then return value else Evaluation.statements calling scope value rest)
          (if value'.isExit then return value'
            else Evaluation.statements calling (mirror.scope scope) value' rest') :=
      coupled_branch (by rw [alike.isExit]) (coupled_pure fun _ => values_widen alike)
        (coupled_statements calls rest (fun _ => values_widen alike)
          (region_of_growth wider known) others)
    obtain ⟨first', rest', rfl, one, others⟩ | ⟨splices, block, otherwise, block', rest', rfl, rfl,
      filled, inner, others⟩ := mirror.of_statements becomes
    · unfold Evaluation.statements
      exact (coupled_statement calls first known one).bind (goesOn others)
    · have stays : Value.null.isExit = false := rfl
      rw [Evaluation.statements_latest (List.append_ne_nil_of_left_ne_nil filled _) _ .null,
        Evaluation.statements_append stays]
      refine coupled_spliced splices ?_
      exact (coupled_statements calls block (fun _ _ => .null) known inner).bind (goesOn others)

end

/-! ### Whole runs -/

/-- Binding names in the scope that was opened last. -/
theorem bindNames_push (scopes : Array Scope) (closures : Nat) (signal : Option Signal)
    (found : Scope) (names : List String) (values : List Value) :
    Run.bindNames scopes.size names values ⟨⟨scopes.push found, closures⟩, signal, none⟩ =
      some ((), ⟨⟨scopes.push (found.bindAll names values), closures⟩, signal, none⟩) := by
  induction names generalizing found values with
  | nil => rfl
  | cons name names inductionHypothesis =>
    cases values with
    | nil => rfl
    | cons value values =>
      have bound : Run.bindName scopes.size name value
          ⟨⟨scopes.push found, closures⟩, signal, none⟩ =
            some ((), ⟨⟨scopes.push (found.bind name value), closures⟩, signal, none⟩) := by
        have last : (scopes.push found).modify scopes.size (·.bind name value) =
            scopes.push (found.bind name value) := by
          refine Array.ext_getElem? fun place => ?_
          rw [Array.getElem?_modify, Array.getElem?_push, Array.getElem?_push]
          grind
        simp [Run.bindName, Store.set, last, Machine.write]
      rw [Run.bindNames, Run.bind_of_eq_some bound]
      exact inductionHypothesis (found.bind name value) values

/-- A call runs the body in a new scope with the parameters bound. -/
theorem call_succ (depth : Nat) (closure : Closure) (values : List Value) (store : Store)
    (signal : Option Signal) :
    Evaluation.call (depth + 1) closure values ⟨store, signal, none⟩ =
      (do
        let value ←
          Evaluation.statements (Evaluation.call depth) store.scopes.size .null closure.body
        return value.unwrapped)
        ⟨⟨store.scopes.push (Scope.bindAll ⟨[], some closure.scope⟩ closure.parameters values),
          store.closures⟩, signal, none⟩ := by
  have opened : Run.enclose closure.scope ⟨store, signal, none⟩ = some (store.scopes.size,
      ⟨⟨store.scopes.push ⟨[], some closure.scope⟩, store.closures⟩, signal, none⟩) := rfl
  exact (Run.bind_of_eq_some opened).trans (Run.bind_of_eq_some (bindNames_push _ _ _ _ _ _))

theorem coupled_call (depth : Nat) : CallsCoupled mirror (Evaluation.call depth) := by
  induction depth with
  | zero => exact fun _ _ _ _ _ _ _ _ => coupled_exhausted
  | succ depth inductionHypothesis =>
    intro regions closure closure' values values' alike given enough more wider store store' signal
      stores
    obtain ⟨around, known, becomes⟩ := alike.literal
    obtain ⟨region, body', same, inner, free, within⟩ := mirror.of_function becomes
    obtain ⟨parameters, rfl⟩ := Expression.function.inj same
    have known := region_of_growth wider known
    have older : closure.scope < store.scopes.size :=
      stores.size ▸ (List.getElem?_eq_some_iff.mp known).1
    have values := List.Forall₂.imp (fun _ _ one => values_widen one wider) given
    have opened := stores.push (Scopes.call known older within free values enough)
    have here : (more ++ [region])[store.scopes.size]? = some region :=
      stores.size ▸ List.getElem?_concat_length
    have next : mirror.scope store.scopes.size = store'.scopes.size := stores.scopes 0
    have body := coupled_statements inductionHypothesis closure.body (fun _ _ => .null) here inner
    have whole := body.bind fun _ _ _ _ alike => coupled_pure fun _ further =>
      values_widen alike.unwrapped further
    rw [call_succ, call_succ, parameters, alike.scope, ← next]
    obtain nothing | ⟨last, value, value', final, final', left, further, rest⟩ :=
      whole _ List.prefix_rfl _ _ signal opened
    · exact .inl nothing
    · exact .inr ⟨last, value, value', final, final', left,
        (List.prefix_append _ _).trans further, rest⟩

variable (mirror) in
/-- A program and what becomes of it come to completions that are alike. -/
theorem coupled_run (program program' : Program) (depth : Nat)
    (known : regions[scope]? = some region)
    (becomes : mirror.OfStatements region program.statements program'.statements) :
    mirror.Coupled regions (fun more => Completion.Like (mirror.Closures more))
      (program.run depth scope) (program'.run depth (mirror.scope scope)) :=
  (coupled_statements (coupled_call depth) _ (fun _ _ => .null) known becomes).bind
    fun _ _ _ _ alike => coupled_pure fun _ further => (values_widen alike further).completion

/-! ### In step -/

/-- Where no statement gives way to others, both runs look at every flag equally often. -/
class InStep (mirror : Mirror) : Prop where
  splices : mirror.splices = false

/-- Runs that are in step are coupled under every flag. -/
theorem Coupled.inStep [inStep : InStep mirror]
    {Alike : List mirror.Region → Result → Result → Prop} {run run' : Run Result}
    (coupled : mirror.Coupled regions Alike run run') :
    mirror.CoupledUnder (fun signal => signal) regions Alike run run' := by
  have same : mirror.flag = fun signal => signal := by
    funext signal
    rw [flag, inStep.splices, cond_false]
  exact same ▸ coupled

/-- Alike values are applied to alike arguments under the same flag. -/
theorem coupled_apply [InStep mirror] (calls : CallsCoupled mirror calling)
    {callee callee' : Value} {values values' : List Value}
    (called : mirror.Values regions callee callee')
    (given : List.Forall₂ (mirror.Values regions) values values') :
    mirror.CoupledUnder (fun signal => signal) regions mirror.Values
      (Evaluation.apply calling callee values) (Evaluation.apply calling callee' values') :=
  (coupled_application calls called given).inStep

variable (mirror) in
/-- A program and what becomes of it are run under the same flag. -/
theorem coupled_program [InStep mirror] (program program' : Program) (depth : Nat)
    (known : regions[scope]? = some region)
    (becomes : mirror.OfStatements region program.statements program'.statements) :
    mirror.CoupledUnder (fun signal => signal) regions
      (fun more => Completion.Like (mirror.Closures more)) (program.run depth scope)
      (program'.run depth (mirror.scope scope)) :=
  (coupled_run mirror program program' depth known becomes).inStep

end Monkey.Mirror
