/-
This file shows that a first diagnostic is never late. Whatever a reading took
before the token that its first diagnostic names can be completed to the piece
that it reads. A piece that was read moves in front of the completion of the next
one, and every piece can be made from nothing, so the pieces of a construct are
gone through one after the other, along the reading.
-/

import Monkey.Proofs.Grammar.Completion
import Monkey.Proofs.Grammar.Soundness
import Monkey.Proofs.Reading.Foresight

namespace Monkey.Grammar

open Reading

/-! ### Pieces with their closing signs -/

namespace Piece

/-- Either of two pieces. -/
def either (first second : Piece) : Piece :=
  fun tokens rest => first tokens rest ∨ second tokens rest

/-- The names of a parameter list with the parenthesis that closes it. -/
def names : Piece :=
  (any .names).andThen (tagged .rightParen)

/-- What stands after the opening parenthesis of a parameter list. -/
def parameters : Piece :=
  either (tagged .rightParen) names

/-- Expressions with commas between them and the parenthesis that closes them. -/
def list : Piece :=
  (any .list).andThen (tagged .rightParen)

/-- What stands after the opening parenthesis of a call. -/
def arguments : Piece :=
  either (tagged .rightParen) list

/-- What stands after the opening brace of a block. -/
def block : Piece :=
  (any .statements).andThen Closed

/-- A block with its opening brace. -/
def braced : Piece :=
  (tagged .leftBrace).andThen block

end Piece

open Piece

variable {Result Following : Type} {tokens rest : List Token}

/-! ### Pieces made from nothing -/

theorem completable_layer (layer : Layer) : Completable (any (.layer layer)) [] := by
  refine completable_name.map ?_
  rintro _ _ ⟨token, same, rfl⟩
  exact ⟨_, (Derives.primary (.identifier same)).loosen (by cases layer <;> decide)⟩

theorem completable_rightParen : Completable (tagged .rightParen) [] :=
  completable_sign (by decide : (')', .rightParen) ∈ Token.signs)

theorem completable_leftParen : Completable (tagged .leftParen) [] :=
  completable_sign (by decide : ('(', .leftParen) ∈ Token.signs)

theorem completable_leftBrace : Completable (tagged .leftBrace) [] :=
  completable_sign (by decide : ('{', .leftBrace) ∈ Token.signs)

theorem completable_assign : Completable (tagged .assign) [] :=
  completable_sign (by decide : ('=', .assign) ∈ Token.signs)

theorem completable_empty : Completable (any .statements) [] :=
  ⟨[], List.forall_mem_nil _, fun _ => ⟨[], .empty⟩⟩

theorem completable_block : Completable block [] :=
  completable_empty.andThen completable_closed

theorem completable_braced : Completable braced [] :=
  completable_leftBrace.andThen completable_block

theorem completable_names : Completable Piece.names [] := by
  refine Completable.andThen (completable_name.map ?_) completable_rightParen
  rintro _ _ ⟨token, same, rfl⟩
  exact ⟨_, .name same⟩

theorem loosen_any {layer looser : Layer} (above : looser.precedence.rank ≤ layer.precedence.rank) :
    ∀ tokens rest, any (.layer layer) tokens rest → any (.layer looser) tokens rest :=
  fun _ _ ⟨tree, derivation⟩ => ⟨tree, derivation.loosen above⟩

theorem completable_list : Completable list [] := by
  refine Completable.andThen ((completable_layer .equality).map ?_) completable_rightParen
  rintro _ _ ⟨_, derivation⟩
  exact ⟨_, .item derivation⟩

/-! ### Pieces that were read -/

theorem Derives.moves_any {Tree : Type} {shape : Tree → Construct} {tree : Tree}
    (derivation : Derives (shape tree) tokens rest) : Moves (any shape) tokens rest :=
  derivation.moves.map fun _ _ moved => ⟨tree, moved⟩

theorem moves_names {found : List String} {closing : Token}
    (derivation : Derives (.names found) tokens (closing :: rest))
    (closes : closing.tag = .rightParen) : Moves Piece.names tokens rest :=
  derivation.moves_any.append (moves_tagged closes (by decide))

theorem moves_parameters {found : List String} {opening : Token}
    (derivation : Derives (.parameters found) (opening :: tokens) rest) :
    Moves Piece.parameters tokens rest := by
  cases derivation with
  | noParameters _ closes => exact (moves_tagged closes (by decide)).map fun _ _ => .inl
  | parameters _ inner closes => exact (moves_names inner closes).map fun _ _ => .inr

theorem moves_list {trees : List Expression} {closing : Token}
    (derivation : Derives (.list trees) tokens (closing :: rest))
    (closes : closing.tag = .rightParen) : Moves list tokens rest :=
  derivation.moves_any.append (moves_tagged closes (by decide))

theorem moves_arguments {trees : List Expression} {opening : Token}
    (derivation : Derives (.arguments trees) (opening :: tokens) rest) :
    Moves Piece.arguments tokens rest := by
  cases derivation with
  | noArguments _ closes => exact (moves_tagged closes (by decide)).map fun _ _ => .inl
  | arguments _ inner closes => exact (moves_list inner closes).map fun _ _ => .inr

theorem moves_block {trees : List Statement} {after : List Token}
    (derivation : Derives (.statements trees) tokens after) (closes : Closed after rest) :
    Moves block tokens rest :=
  derivation.moves_any.append closes.moves

/-! ### Readings of pieces -/

/-- A reading of two pieces: before the second is begun the first was whole. -/
theorem foresees_bind {first second : Piece} {reading : Reading Result}
    {next : Result → Reading Following} (one : Foresees (Completable first) reading tokens)
    (fresh : Completable second [])
    (moves : ∀ result rest, reading.Accepts tokens result rest → Moves first tokens rest)
    (two : ∀ result rest, reading.Accepts tokens result rest →
      Foresees (Completable second) (next result) rest) :
    Foresees (Completable (first.andThen second)) (reading >>= next) tokens := by
  refine (one.weaken fun _ _ _ opened => opened.andThen fresh).bind ?_
  intro result taken rest split accepted
  have movable := (moves result rest accepted).movable split
  refine (two result rest accepted).weaken fun more after follows opened => ?_
  have same : (Token.first (more ++ after)).tag = (Token.first rest).tag := follows ▸ rfl
  exact movable.completable_append same opened

/-- The last step only makes the tree. -/
theorem foresees_tree {Open : List Token → Prop} {reading : Reading Result}
    (one : Foresees Open reading tokens) (make : Result → Following) :
    Foresees Open (do return make (← reading)) tokens :=
  one.bind fun _ _ _ _ _ => .pure _

theorem foresees_map {first second : Piece} {reading : Reading Result}
    (one : Foresees (Completable first) reading tokens)
    (build : ∀ tokens rest, first tokens rest → second tokens rest) :
    Foresees (Completable second) reading tokens :=
  one.weaken fun _ _ _ opened => opened.map build

theorem foresees_expect {expected : Tag} (other : expected ≠ .endOfInput)
    (legal : expected ≠ .illegal) (sign : Completable (tagged expected) []) {second : Piece}
    (fresh : Completable second []) {next : Token → Reading Following}
    (two : ∀ token rest, tokens = token :: rest → token.tag = expected →
      Foresees (Completable second) (next token) rest) :
    Foresees (Completable ((tagged expected).andThen second)) (expect expected >>= next)
      tokens := by
  refine foresees_bind (.expect other sign) fresh (fun token rest accepted => ?_)
    fun token rest accepted => ?_
  · obtain ⟨rfl, same⟩ := (accepts_expect other).mp accepted
    exact moves_tagged same legal
  · obtain ⟨rfl, same⟩ := (accepts_expect other).mp accepted
    exact two token rest rfl same

theorem foresees_advance {tag : Tag} (same : (Token.first tokens).tag = tag)
    (other : tag ≠ .endOfInput) (legal : tag ≠ .illegal) {second : Piece}
    (fresh : Completable second []) {next : Token → Reading Following}
    (two : ∀ token rest, tokens = token :: rest → token.tag = tag →
      Foresees (Completable second) (next token) rest) :
    Foresees (Completable ((tagged tag).andThen second)) (advance >>= next) tokens := by
  obtain ⟨token, rest, rfl, same⟩ := (first_tag_eq other).mp same
  refine foresees_bind (.advance token rest) fresh (fun result after accepted => ?_)
    fun result after accepted => ?_
  · cases accepted
    exact moves_tagged same legal
  · cases accepted
    exact two token rest rfl same

/-- A reading after a token that belongs to the whole piece. -/
theorem foresees_after {piece whole : Piece} {token : Token} {reading : Reading Result}
    (one : Foresees (Completable piece) reading tokens)
    (build : ∀ tokens rest, piece tokens rest → whole (token :: tokens) rest) :
    Foresees (fun taken => Completable whole (token :: taken)) reading tokens := by
  refine one.weaken fun taken _ _ opened => ?_
  obtain ⟨completion, written, derives⟩ := opened
  exact ⟨completion, written, fun rest => build _ _ (derives rest)⟩

/-- What the readings took before their first diagnostic can be completed. An extension goes on
with an expression that was begun before it. -/
structure Foreseeing (readings : Readings) : Prop where
  names : ∀ tokens, Foresees (Completable Piece.names) readings.names tokens
  operand : ∀ tokens, Foresees (Completable (any (.layer .sign))) readings.operand tokens
  expression : ∀ floor tokens,
    Foresees (Completable (any (.layer (floorLayer floor)))) (readings.expression floor) tokens
  extension : ∀ floor left tokens begun layer,
    Movable (any (.layer layer)) begun (Token.first tokens).tag → Stops layer tokens →
      Foresees (fun more => Completable (any (.layer (floorLayer floor))) (begun ++ more))
        (readings.extension floor left) tokens
  arguments : ∀ tokens, Foresees (Completable Piece.arguments) readings.arguments tokens
  expressions : ∀ tokens, Foresees (Completable list) readings.expressions tokens
  block : ∀ tokens, Foresees (Completable block) readings.block tokens
  statement : ∀ tokens, Foresees (Completable (any .statement)) readings.statement tokens
  statements : ∀ tokens, Foresees (Completable (any .statements)) readings.statements tokens

namespace Foreseeing

theorem mute : Foreseeing .mute where
  names _ := .exhausted
  operand _ := .exhausted
  expression _ _ := .exhausted
  extension _ _ _ _ _ _ _ := .exhausted
  arguments _ := .exhausted
  expressions _ := .exhausted
  block _ := .exhausted
  statement _ := .exhausted
  statements _ := .exhausted

variable {inner : Readings}

/-! ### Operands -/

theorem names_deeper (foresees : Foreseeing inner) :
    Foresees (Completable Piece.names) inner.deeper.names tokens := by
  have whole : Foresees (Completable ((tagged .identifier).andThen
      (either (tagged .rightParen) ((tagged .comma).andThen Piece.names)))) inner.deeper.names
      tokens := by
    refine foresees_expect (by decide) (by decide) completable_name
      (completable_rightParen.map fun _ _ => .inl) fun name rest _ _ => ?_
    refine .upcoming_bind (.ite (fun comma => foresees_map ?_ fun _ _ => .inr)
      fun _ => foresees_map ?_ fun _ _ => .inl)
    · exact foresees_advance comma (by decide) (by decide) completable_names
        fun _ rest _ _ => foresees_tree (foresees.names rest) _
    · exact foresees_tree (.expect (by decide) completable_rightParen) _
  refine foresees_map whole ?_
  rintro _ _ ⟨_, ⟨name, named, rfl⟩,
    closes | ⟨_, ⟨comma, separates, rfl⟩, _, ⟨others, names⟩, closes⟩⟩
  · exact ⟨_, ⟨_, .name named⟩, closes⟩
  · exact ⟨_, ⟨_, .names named separates names⟩, closes⟩

theorem parameters (foresees : Foreseeing inner) :
    Foresees (Completable Piece.parameters) inner.parameters tokens := by
  refine .upcoming_bind (.ite (fun closed => ?_) fun _ => ?_)
  · obtain ⟨token, rest, rfl, _⟩ := (first_tag_eq (by decide)).mp closed
    exact .advance_bind (.pure _)
  · exact foresees_map (foresees.names tokens) fun _ _ => .inr

/-- What stands after the first word of a function. -/
theorem function (foresees : Foreseeing inner) (sound : Sound inner) :
    Foresees (Completable ((tagged .leftParen).andThen (Piece.parameters.andThen braced)))
      inner.function tokens := by
  have parameters : Completable Piece.parameters [] := completable_rightParen.map fun _ _ => .inl
  refine foresees_expect (by decide) (by decide) completable_leftParen
    (parameters.andThen completable_braced) fun opening rest _ opens => ?_
  refine foresees_bind foresees.parameters completable_braced (fun names rest accepted => ?_)
    fun names rest accepted => ?_
  · exact moves_parameters (sound.parameters accepted opens)
  · refine foresees_expect (by decide) (by decide) completable_leftBrace completable_block ?_
    exact fun _ rest _ _ => foresees_tree (foresees.block rest) _

/-- What stands after the first word of a conditional. -/
theorem conditional (foresees : Foreseeing inner) (sound : Sound inner) :
    Foresees (Completable ((tagged .leftParen).andThen ((any Construct.expression).andThen
      ((tagged .rightParen).andThen ((tagged .leftBrace).andThen (Piece.block.andThen
        (optional ((tagged .alternative).andThen braced)))))))) inner.conditional tokens := by
  have nothing : Completable (optional ((tagged .alternative).andThen braced)) [] :=
    ⟨[], List.forall_mem_nil _, fun _ => .inl rfl⟩
  have inside := completable_block.andThen nothing
  have opening := completable_leftBrace.andThen inside
  have closing := completable_rightParen.andThen opening
  refine foresees_expect (by decide) (by decide) completable_leftParen
    ((completable_layer _).andThen closing) fun _ tokens _ _ => ?_
  refine foresees_bind (foresees.expression .lowest tokens) closing (fun _ _ accepted =>
    (sound.expression _ _ _ _ accepted).1.moves_any) fun _ tokens _ => ?_
  refine foresees_expect (by decide) (by decide) completable_rightParen opening
    fun _ tokens _ _ => ?_
  refine foresees_expect (by decide) (by decide) completable_leftBrace inside fun _ tokens _ _ => ?_
  refine foresees_bind (foresees.block tokens) nothing (fun _ _ accepted => ?_) fun _ tokens _ => ?_
  · obtain ⟨_, derivation, closes⟩ := sound.block _ _ _ accepted
    exact moves_block derivation closes
  refine .upcoming_bind (.ite (fun turns => foresees_map ?_ fun _ _ => .inr) fun _ => .pure _)
  refine foresees_advance turns (by decide) (by decide) completable_braced fun _ tokens _ _ => ?_
  refine foresees_expect (by decide) (by decide) completable_leftBrace completable_block ?_
  exact fun _ rest _ _ => foresees_tree (foresees.block rest) _

/-- What stands in parentheses after the opening one. -/
theorem grouped (foresees : Foreseeing inner) (sound : Sound inner) :
    Foresees (Completable ((any Construct.expression).andThen (tagged .rightParen))) (do
      let tree ← inner.expression .lowest
      let _ ← expect .rightParen
      return tree) tokens := by
  refine foresees_bind (foresees.expression .lowest tokens) completable_rightParen
    (fun _ _ accepted => (sound.expression _ _ _ _ accepted).1.moves_any) fun _ _ _ => ?_
  exact foresees_tree (.expect (by decide) completable_rightParen) _

/-- A first token is given up at once, or belongs to the operand. -/
theorem operandAfter (foresees : Foreseeing inner) (sound : Sound inner) (token : Token)
    (tokens : List Token) :
    (∃ reported : Diagnostic, inner.operandAfter token = reject reported ∧ reported.Names token) ∨
      Foresees (fun taken => Completable (any (.layer .sign)) (token :: taken))
        (inner.operandAfter token) tokens := by
  have called : ∀ {tree tokens rest}, Derives (.primary tree) tokens rest →
      any (.layer .sign) tokens rest :=
    fun derivation => ⟨_, (Derives.primary derivation).loosen (by decide)⟩
  unfold Readings.operandAfter
  split
  · exact .inr (.pure _)
  · rename_i same
    split
    · exact .inr (.pure _)
    · exact .inl ⟨_, rfl, same, rfl⟩
  · exact .inr (.pure _)
  · exact .inr (.pure _)
  · rename_i same
    refine .inr (foresees_after (foresees_tree (foresees.expression .sign tokens) _) ?_)
    have stands : (token.tag, PrefixOperator.bang) ∈ signs := by rw [same]; decide
    exact fun _ _ ⟨_, inner⟩ => ⟨_, .prefixed stands inner⟩
  · rename_i same
    refine .inr (foresees_after (foresees_tree (foresees.expression .sign tokens) _) ?_)
    have stands : (token.tag, PrefixOperator.minus) ∈ signs := by rw [same]; decide
    exact fun _ _ ⟨_, inner⟩ => ⟨_, .prefixed stands inner⟩
  · refine .inr (foresees_after (foresees.grouped sound) ?_)
    rintro _ _ ⟨_, ⟨_, inner⟩, _, closes, rfl⟩
    exact called (.grouped ‹_› inner closes)
  · refine .inr (foresees_after (foresees.conditional sound) ?_)
    rintro _ _ ⟨_, ⟨_, opens, rfl⟩, _, ⟨_, condition⟩, _, ⟨_, closes, rfl⟩, _, ⟨_, braces, rfl⟩, _,
      ⟨_, ⟨_, yes⟩, closed⟩,
      rfl | ⟨_, ⟨_, turns, rfl⟩, _, ⟨_, bracesToo, rfl⟩, _, ⟨_, no⟩, closedToo⟩⟩
    · exact called (.conditional ‹_› opens condition closes (.block braces yes closed))
    · exact called (.alternative ‹_› opens condition closes (.block braces yes closed) turns
        (.block bracesToo no closedToo))
  · refine .inr (foresees_after (foresees.function sound) ?_)
    rintro _ _ ⟨_, ⟨_, opens, rfl⟩, _, ⟨_, closes, rfl⟩ | ⟨_, ⟨_, names⟩, _, closes, rfl⟩, _,
      ⟨_, braces, rfl⟩, _, ⟨_, body⟩, closed⟩
    · exact called (.function ‹_› (.noParameters opens closes) (.block braces body closed))
    · exact called (.function ‹_› (.parameters opens names closes) (.block braces body closed))
  · exact .inl ⟨_, rfl, rfl⟩

theorem operand_deeper (foresees : Foreseeing inner) (sound : Sound inner) :
    Foresees (Completable (any (.layer .sign))) inner.deeper.operand tokens := by
  cases tokens with
  | nil =>
    intro outcome found
    cases found
    exact .faulty [] rfl rfl rfl (completable_layer _) fun _ _ _ _ same => nomatch same
  | cons token rest =>
    obtain ⟨reported, rejects, names⟩ | opened := foresees.operandAfter sound token rest
    · have whole : ∀ after, inner.deeper.operand (token :: after) =
          some (.rejected reported [] after) := by
        intro after
        exact (advance_bind _).trans (congrFun rejects after)
      intro outcome found
      rw [whole] at found
      cases found
      refine .faulty [] rfl rfl names (completable_layer _) fun _ _ other outcome same again => ?_
      cases same
      rw [List.nil_append, whole] at again
      cases again
      rfl
    · exact .advance_bind opened

/-! ### Expressions -/

theorem expression_deeper (foresees : Foreseeing inner) (sound : Sound inner)
    (floor : Precedence) :
    Foresees (Completable (any (.layer (floorLayer floor)))) (inner.deeper.expression floor)
      tokens := by
  have above := loosen_any (rank_floorLayer_le_sign floor)
  refine (foresees_map (foresees.operand tokens) above).bind fun left taken rest split accepted => ?_
  obtain ⟨layer, derivation, stops, _⟩ := sound.operand _ _ _ accepted
  exact foresees.extension floor left rest taken layer (derivation.moves_any.movable split) stops

/-- One step of an extension: a sign and what belongs to it are joined to what was begun. -/
theorem extension_step {floor : Precedence} {layer joined : Layer} {part : Piece}
    {begun middle : List Token} {sign : Token} {reading : Reading Result}
    {next : Result → Reading Expression} (movable : Movable (any (.layer layer)) begun sign.tag)
    (legal : sign.tag ≠ .illegal)
    (looser : (floorLayer floor).precedence.rank ≤ joined.precedence.rank)
    (join : ∀ tokens rest, (any (.layer layer)).andThen ((tagged sign.tag).andThen part)
      tokens rest → any (.layer joined) tokens rest)
    (one : Foresees (Completable part) reading middle)
    (moves : ∀ result rest, reading.Accepts middle result rest →
      Moves part middle rest ∧ Stops joined rest)
    (two : ∀ result rest begun, Movable (any (.layer joined)) begun (Token.first rest).tag →
      Stops joined rest → Foresees (fun more => Completable (any (.layer (floorLayer floor)))
        (begun ++ more)) (next result) rest) :
    Foresees (fun more => Completable (any (.layer (floorLayer floor))) (begun ++ sign :: more))
      (reading >>= next) middle := by
  have opened : Foresees (fun more => Completable (any (.layer (floorLayer floor)))
      (begun ++ sign :: more)) reading middle := by
    refine one.weaken fun more rest _ opened => Completable.map ?_ (loosen_any looser)
    have follows : (Token.first (sign :: more ++ rest)).tag = sign.tag := rfl
    exact (movable.completable_append follows (opened.cons sign)).map join
  refine opened.bind fun result taken rest split accepted => ?_
  obtain ⟨moved, stops⟩ := moves result rest accepted
  have movablePart := moved.movable split
  subst split
  have movableSign : Movable (tagged sign.tag) [sign] (Token.first (taken ++ rest)).tag :=
    movable_token legal fun _ => ⟨sign, rfl, rfl⟩
  have signed := movableSign.append movablePart
  have begins : Movable (any (.layer layer)) begun (Token.first ([sign] ++ taken ++ rest)).tag :=
    movable
  have going := two result rest _ ((begins.append signed).map join) stops
  simpa only [List.append_assoc, List.cons_append, List.nil_append] using going

theorem extension_deeper (foresees : Foreseeing inner) (sound : Sound inner) (floor : Precedence)
    (left : Expression) {begun : List Token} {layer : Layer}
    (movable : Movable (any (.layer layer)) begun (Token.first tokens).tag)
    (stops : Stops layer tokens) :
    Foresees (fun more => Completable (any (.layer (floorLayer floor))) (begun ++ more))
      (inner.deeper.extension floor left) tokens := by
  refine .upcoming_bind (.ite (fun binds => ?_) fun _ => .pure _)
  obtain ⟨sign, middle, rfl⟩ := List.exists_cons_of_length_pos (length_pos_of_binding binds)
  change floor < sign.tag.precedence at binds
  change ¬ layer.precedence < sign.tag.precedence at stops
  refine .advance_bind ?_
  cases found : sign.tag.infixOperator? with
  | some operator =>
    simp only [Token.first, found]
    rw [precedence_of_infixOperator found, ← precedence_operatorLayer] at binds stops
    have legal : sign.tag ≠ .illegal := by
      rintro same
      rw [same] at found
      cases found
    have join : ∀ tokens rest, (any (.layer layer)).andThen ((tagged sign.tag).andThen
        (any (.layer (floorLayer operator.precedence)))) tokens rest →
          any (.layer (operatorLayer operator)) tokens rest := by
      rintro _ _ ⟨_, ⟨_, first⟩, _, ⟨other, same, rfl⟩, _, second⟩
      have joins : (other.tag, operator) ∈ (operatorLayer operator).operators :=
        same ▸ mem_operators found
      exact ⟨_, .infixed (first.loosen (Nat.not_lt.mp stops)) joins (tighter_operatorLayer operator)
        second⟩
    have above : (floorLayer floor).precedence.rank ≤ (operatorLayer operator).precedence.rank :=
      (rank_floorLayer_le floor).trans binds
    refine extension_step movable legal above join (foresees.expression operator.precedence middle)
      (fun right rest accepted => ?_)
      fun right rest begun movable stops => foresees.extension floor _ rest begun _ movable stops
    obtain ⟨derivation, stopsRight⟩ := sound.expression _ _ _ _ accepted
    rw [← precedence_operatorLayer] at stopsRight
    exact ⟨derivation.moves_any, stopsRight⟩
  | none =>
    simp only [Token.first, found]
    have paren : sign.tag = .leftParen := eq_leftParen_of_binds binds found
    have join : ∀ tokens rest, (any (.layer layer)).andThen ((tagged sign.tag).andThen
        Piece.arguments) tokens rest → any (.layer .call) tokens rest := by
      rw [paren] at stops ⊢
      rintro _ _ ⟨_, ⟨_, callee⟩, _, ⟨_, opens, rfl⟩, given⟩
      have head : Derives (.layer .call _) _ _ := callee.loosen (Nat.not_lt.mp stops)
      obtain ⟨_, closes, rfl⟩ | ⟨_, ⟨_, listed⟩, _, closes, rfl⟩ := given
      · exact ⟨_, .call head (.noArguments opens closes)⟩
      · exact ⟨_, .call head (.arguments opens listed closes)⟩
    have above : (floorLayer floor).precedence.rank ≤ Layer.call.precedence.rank :=
      (rank_floorLayer_le_sign floor).trans (by decide)
    refine extension_step movable (by rw [paren]; decide) above join (foresees.arguments middle)
      (fun given rest accepted => ?_)
      fun given rest begun movable stops => foresees.extension floor _ rest begun _ movable stops
    exact ⟨moves_arguments (sound.arguments _ _ _ accepted sign paren), stops_call rest⟩

theorem arguments_deeper (foresees : Foreseeing inner) :
    Foresees (Completable Piece.arguments) inner.deeper.arguments tokens := by
  refine .upcoming_bind (.ite (fun closed => ?_) fun _ => ?_)
  · obtain ⟨token, rest, rfl, _⟩ := (first_tag_eq (by decide)).mp closed
    exact .advance_bind (.pure _)
  · exact foresees_map (foresees.expressions tokens) fun _ _ => .inr

theorem expressions_deeper (foresees : Foreseeing inner) (sound : Sound inner) :
    Foresees (Completable list) inner.deeper.expressions tokens := by
  have closing : Completable (either (tagged .rightParen) ((tagged .comma).andThen list)) [] :=
    completable_rightParen.map fun _ _ => .inl
  have whole : Foresees (Completable ((any Construct.expression).andThen
      (either (tagged .rightParen) ((tagged .comma).andThen list)))) inner.deeper.expressions
      tokens := by
    refine foresees_bind (foresees.expression .lowest tokens) closing (fun _ _ accepted =>
      (sound.expression _ _ _ _ accepted).1.moves_any) fun _ tokens _ => ?_
    refine .upcoming_bind (.ite (fun comma => foresees_map ?_ fun _ _ => .inr)
      fun _ => foresees_map ?_ fun _ _ => .inl)
    · exact foresees_advance comma (by decide) (by decide) completable_list
        fun _ rest _ _ => foresees_tree (foresees.expressions rest) _
    · exact foresees_tree (.expect (by decide) completable_rightParen) _
  refine foresees_map whole ?_
  rintro _ _ ⟨_, ⟨_, item⟩, closes | ⟨_, ⟨comma, separates, rfl⟩, _, ⟨others, listed⟩, closes⟩⟩
  · exact ⟨_, ⟨_, .item item⟩, closes⟩
  · exact ⟨_, ⟨_, .items item separates listed⟩, closes⟩

/-! ### Statements -/

/-- An expression at the end of a statement, and the semicolon after it if there is one. -/
theorem ending (foresees : Foreseeing inner) (sound : Sound inner)
    (make : Expression → Statement) :
    Foresees (Completable ((any Construct.expression).andThen Terminated)) (do
      let value ← inner.expression .lowest
      skip .semicolon
      return make value) tokens := by
  refine foresees_bind (foresees.expression .lowest tokens) completable_terminated
    (fun _ _ accepted => (sound.expression _ _ _ _ accepted).1.moves_any) fun _ _ _ => ?_
  exact foresees_tree (.skip (by decide)) _

/-- What stands after the first word of a binding. -/
theorem binding (foresees : Foreseeing inner) (sound : Sound inner) :
    Foresees (Completable ((tagged .identifier).andThen ((tagged .assign).andThen
      ((any Construct.expression).andThen Terminated)))) inner.binding tokens := by
  have ended := (completable_layer .equality).andThen completable_terminated
  refine foresees_expect (by decide) (by decide) completable_name
    (completable_assign.andThen ended) fun _ tokens _ _ => ?_
  refine foresees_expect (by decide) (by decide) completable_assign ended fun _ tokens _ _ => ?_
  exact foresees.ending sound _

/-- What stands after the first word of a return is nothing, or an expression at the end. -/
theorem returning (foresees : Foreseeing inner) (sound : Sound inner) :
    Foresees (Completable ((any Construct.expression).andThen Terminated)) inner.returning
      tokens := by
  refine .upcoming_bind (.ite (fun _ => ?_) fun _ => ?_)
  · exact foresees_tree (.skip (by decide)) _
  · exact foresees.ending sound _

theorem statement_deeper (foresees : Foreseeing inner) (sound : Sound inner) :
    Foresees (Completable (any .statement)) inner.deeper.statement tokens := by
  refine .upcoming_bind ?_
  split
  · rename_i same
    obtain ⟨word, rest, rfl, tagged⟩ := (first_tag_eq (by decide)).mp same
    refine .advance_bind (foresees_after (foresees.binding sound) ?_)
    rintro _ _ ⟨_, ⟨_, named, rfl⟩, _, ⟨_, assigns, rfl⟩, _, ⟨_, value⟩, ends⟩
    exact ⟨_, .binding tagged named assigns value ends⟩
  · rename_i same
    obtain ⟨word, rest, rfl, tagged⟩ := (first_tag_eq (by decide)).mp same
    refine .advance_bind (foresees_after (foresees.returning sound) ?_)
    rintro _ _ ⟨_, ⟨_, value⟩, ends⟩
    exact ⟨_, .returning tagged value ends⟩
  · refine foresees_map (foresees.ending sound _) ?_
    rintro _ _ ⟨_, ⟨_, value⟩, ends⟩
    exact ⟨_, .expression value ends⟩

/-- One statement, and those after it. -/
theorem first_of_statements (foresees : Foreseeing inner) (sound : Sound inner)
    {others : Reading (List Statement)} {piece : Piece} (fresh : Completable piece [])
    (rest : ∀ tokens, Foresees (Completable piece) others tokens) :
    Foresees (Completable ((any .statement).andThen piece)) (do
      let found ← attempt inner.statement
      return found.toList ++ (← others)) tokens := by
  refine foresees_bind (foresees.statement tokens).attempt fresh (fun found _ accepted => ?_)
    fun _ tokens _ => foresees_tree (rest tokens) _
  obtain ⟨_, _, read⟩ := accepts_attempt.mp accepted
  exact (sound.statement _ _ _ read).moves_any

theorem block_deeper (foresees : Foreseeing inner) (sound : Sound inner) :
    Foresees (Completable Piece.block) inner.deeper.block tokens := by
  refine .upcoming_bind (.ite (fun closed => ?_) fun _ => .ite (fun _ => .pure _) fun _ => ?_)
  · obtain ⟨token, rest, rfl, _⟩ := (first_tag_eq (by decide)).mp closed
    exact .advance_bind (.pure _)
  · refine foresees_map (foresees.first_of_statements sound completable_block foresees.block) ?_
    rintro _ _ ⟨_, ⟨_, first⟩, _, ⟨_, others⟩, closes⟩
    exact ⟨_, ⟨_, .statements first others⟩, closes⟩

theorem statements_deeper (foresees : Foreseeing inner) (sound : Sound inner) :
    Foresees (Completable (any .statements)) inner.deeper.statements tokens := by
  refine .upcoming_bind (.ite (fun _ => .pure _) fun _ => ?_)
  refine foresees_map (foresees.first_of_statements sound completable_empty foresees.statements) ?_
  rintro _ _ ⟨_, ⟨_, first⟩, _, others⟩
  exact ⟨_, .statements first others⟩

theorem deeper (foresees : Foreseeing inner) (sound : Sound inner) :
    Foreseeing inner.deeper where
  names _ := foresees.names_deeper
  operand _ := foresees.operand_deeper sound
  expression floor _ := foresees.expression_deeper sound floor
  extension floor left _ _ _ := foresees.extension_deeper sound floor left
  arguments _ := foresees.arguments_deeper
  expressions _ := foresees.expressions_deeper sound
  block _ := foresees.block_deeper sound
  statement _ := foresees.statement_deeper sound
  statements _ := foresees.statements_deeper sound

end Foreseeing

theorem foreseeing_atDepth (depth : Nat) : Foreseeing (.atDepth depth) := by
  induction depth with
  | zero => exact .mute
  | succ depth inductionHypothesis => exact inductionHypothesis.deeper (sound_atDepth depth)

end Monkey.Grammar
