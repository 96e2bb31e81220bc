/-
This file counts the blocks that the end of the input closes. A derivation with
such blocks takes more opening braces than closing ones by just their number, and
nowhere in it more parentheses or braces are closed than were opened before.

These blocks lie one inside the other at the end of the tokens. So some closing
braces at the end close the innermost ones, the end of the input goes on closing
the others, and the tree stays the same. For the induction this is said of the
pieces that a construct is made of. What a piece leaves begins with the end of the
input if it has such a block, and then the pieces after it take no token.
-/

import Monkey.Proofs.Grammar.Completion
import Monkey.Proofs.Grammar.Nesting

namespace Monkey.Grammar

open Token (tally)

/-! ### Blocks that are left open -/

/-- In the derivation the end of the input closes this many blocks. -/
inductive Unclosed : Nat → ∀ {construct : Construct} {tokens rest : List Token},
    Derives construct tokens rest → Prop where
  | infixed joins below (left : Unclosed one first) (right : Unclosed two second) :
    Unclosed (one + two) (.infixed first joins below second)
  | prefixed stands (operand : Unclosed one within) : Unclosed one (.prefixed stands within)
  | call (callee : Unclosed one head) (given : Unclosed two tail) :
    Unclosed (one + two) (.call head tail)
  | descend below (inside : Unclosed one within) : Unclosed one (.descend below within)
  | primary (inside : Unclosed one within) : Unclosed one (.primary within)
  | identifier tagged : Unclosed 0 (.identifier tagged)
  | integer tagged fits : Unclosed 0 (.integer tagged fits)
  | truth tagged : Unclosed 0 (.truth tagged)
  | falsity tagged : Unclosed 0 (.falsity tagged)
  | grouped opens closes (inside : Unclosed one within) :
    Unclosed one (.grouped opens within closes)
  | conditional tagged opens closes (condition : Unclosed one within) (yes : Unclosed two block) :
    Unclosed (one + two) (.conditional tagged opens within closes block)
  | alternative tagged opens closes turns (condition : Unclosed one within)
      (yes : Unclosed two block) (no : Unclosed three other) :
    Unclosed (one + (two + three)) (.alternative tagged opens within closes block turns other)
  | function tagged (names : Unclosed one parameters) (body : Unclosed two block) :
    Unclosed (one + two) (.function tagged parameters block)
  | item (inside : Unclosed one within) : Unclosed one (.item within)
  | items separates (inside : Unclosed one within) (after : Unclosed two others) :
    Unclosed (one + two) (.items within separates others)
  | noArguments opens closes : Unclosed 0 (.noArguments opens closes)
  | arguments opens closes (inside : Unclosed one within) :
    Unclosed one (.arguments opens within closes)
  | name tagged : Unclosed 0 (.name tagged)
  | names tagged separates (after : Unclosed one tail) : Unclosed one (.names tagged separates tail)
  | noParameters opens closes : Unclosed 0 (.noParameters opens closes)
  | parameters opens closes (inside : Unclosed one within) :
    Unclosed one (.parameters opens within closes)
  | closedBlock opens tagged (inside : Unclosed one within) :
    Unclosed one (.block opens within (.brace tagged))
  | openBlock opens ended (inside : Unclosed one within) :
    Unclosed (one + 1) (.block opens within (.ended ended))
  | binding tagged named assigns ends (value : Unclosed one within) :
    Unclosed one (.binding tagged named assigns within ends)
  | bareReturn tagged ends : Unclosed 0 (.bareReturn tagged ends)
  | lastReturn tagged ends : Unclosed 0 (.lastReturn tagged ends)
  | returning tagged ends (value : Unclosed one within) :
    Unclosed one (.returning tagged within ends)
  | expression ends (value : Unclosed one within) : Unclosed one (.expression within ends)
  | empty : Unclosed 0 .empty
  | statements (tree : Unclosed one first) (trees : Unclosed two others) :
    Unclosed (one + two) (.statements first others)

variable {construct : Construct} {tokens middle rest : List Token}
  {derivation : Derives construct tokens rest} {count more : Nat}

/-- In every derivation the end of the input closes some number of blocks. -/
theorem Derives.unclosed (derivation : Derives construct tokens rest) :
    ∃ count, Unclosed count derivation := by
  induction derivation with
  | infixed _ joins below _ left right =>
    obtain ⟨_, left⟩ := left
    obtain ⟨_, right⟩ := right
    exact ⟨_, .infixed joins below left right⟩
  | prefixed stands _ operand => exact operand.imp fun _ => .prefixed stands
  | call _ _ callee given =>
    obtain ⟨_, callee⟩ := callee
    obtain ⟨_, given⟩ := given
    exact ⟨_, .call callee given⟩
  | descend below _ inside => exact inside.imp fun _ => .descend below
  | primary _ inside => exact inside.imp fun _ => .primary
  | identifier tagged => exact ⟨0, .identifier tagged⟩
  | integer tagged fits => exact ⟨0, .integer tagged fits⟩
  | truth tagged => exact ⟨0, .truth tagged⟩
  | falsity tagged => exact ⟨0, .falsity tagged⟩
  | grouped opens _ closes inside => exact inside.imp fun _ => .grouped opens closes
  | conditional tagged opens _ closes _ condition yes =>
    obtain ⟨_, condition⟩ := condition
    obtain ⟨_, yes⟩ := yes
    exact ⟨_, .conditional tagged opens closes condition yes⟩
  | alternative tagged opens _ closes _ turns _ condition yes no =>
    obtain ⟨_, condition⟩ := condition
    obtain ⟨_, yes⟩ := yes
    obtain ⟨_, no⟩ := no
    exact ⟨_, .alternative tagged opens closes turns condition yes no⟩
  | function tagged _ _ names body =>
    obtain ⟨_, names⟩ := names
    obtain ⟨_, body⟩ := body
    exact ⟨_, .function tagged names body⟩
  | item _ inside => exact inside.imp fun _ => .item
  | items _ separates _ inside after =>
    obtain ⟨_, inside⟩ := inside
    obtain ⟨_, after⟩ := after
    exact ⟨_, .items separates inside after⟩
  | noArguments opens closes => exact ⟨0, .noArguments opens closes⟩
  | arguments opens _ closes inside => exact inside.imp fun _ => .arguments opens closes
  | name tagged => exact ⟨0, .name tagged⟩
  | names tagged separates _ after => exact after.imp fun _ => .names tagged separates
  | noParameters opens closes => exact ⟨0, .noParameters opens closes⟩
  | parameters opens _ closes inside => exact inside.imp fun _ => .parameters opens closes
  | block opens _ closes inside =>
    cases closes with
    | brace tagged => exact inside.imp fun _ => .closedBlock opens tagged
    | ended ended =>
      obtain ⟨_, inside⟩ := inside
      exact ⟨_, .openBlock opens ended inside⟩
  | binding tagged named assigns _ ends value =>
    exact value.imp fun _ => .binding tagged named assigns ends
  | bareReturn tagged ends => exact ⟨0, .bareReturn tagged ends⟩
  | lastReturn tagged ends => exact ⟨0, .lastReturn tagged ends⟩
  | returning tagged _ ends value => exact value.imp fun _ => .returning tagged ends
  | expression _ ends value => exact value.imp fun _ => .expression ends
  | empty => exact ⟨0, .empty⟩
  | statements _ _ tree trees =>
    obtain ⟨_, tree⟩ := tree
    obtain ⟨_, trees⟩ := trees
    exact ⟨_, .statements tree trees⟩

/-! ### Balance -/

/-- Parentheses come in pairs, so many braces are left open, and no initial part closes more than
it opens. -/
structure Balanced (count : Nat) (taken : List Token) : Prop where
  parentheses : tally .leftParen taken = tally .rightParen taken
  braces : tally .leftBrace taken = tally .rightBrace taken + count
  initial : ∀ start, start <+: taken → tally .rightParen start ≤ tally .leftParen start ∧
    tally .rightBrace start ≤ tally .leftBrace start

namespace Balanced

variable {first second inner : List Token} {token opening closing : Token}

theorem nil : Balanced 0 [] where
  parentheses := rfl
  braces := rfl
  initial start within := by
    rw [List.prefix_nil.mp within]
    exact ⟨Nat.le_refl _, Nat.le_refl _⟩

theorem append (one : Balanced count first) (other : Balanced more second) :
    Balanced (count + more) (first ++ second) where
  parentheses := by
    rw [Token.tally_append, Token.tally_append, one.parentheses, other.parentheses]
  braces := by
    rw [Token.tally_append, Token.tally_append, one.braces, other.braces]
    omega
  initial start within := by
    obtain early | ⟨late, rfl⟩ :=
      List.prefix_or_prefix_of_prefix within (List.prefix_append first second)
    · exact one.initial start early
    · have := other.initial late ((List.prefix_append_right_inj first).mp within)
      have := one.parentheses
      have := one.braces
      simp only [Token.tally_append]
      omega

theorem single (plain : token.tag ∉ brackets) : Balanced 0 [token] := by
  simp only [brackets, List.mem_cons, List.not_mem_nil, or_false, not_or] at plain
  refine ⟨by simp [tally, plain], by simp [tally, plain], fun start within => ?_⟩
  obtain rfl | ⟨others, rfl, nothing⟩ := List.prefix_cons_iff.mp within
  · exact ⟨Nat.le_refl _, Nat.le_refl _⟩
  · rw [List.prefix_nil.mp nothing]
    simp [tally, plain]

/-- A brace that is left open before balanced tokens. -/
theorem unclosed (opens : opening.tag = .leftBrace) (balanced : Balanced count inner) :
    Balanced (count + 1) (opening :: inner) where
  parentheses := by simpa [Token.tally_cons, opens] using balanced.parentheses
  braces := by
    simp only [Token.tally_cons, opens, balanced.braces, reduceCtorEq, if_true, if_false]
    omega
  initial start within := by
    obtain rfl | ⟨others, rfl, inside⟩ := List.prefix_cons_iff.mp within
    · exact ⟨Nat.le_refl _, Nat.le_refl _⟩
    · have := balanced.initial others inside
      simp only [Token.tally_cons, opens, reduceCtorEq, if_true, if_false]
      omega

/-- Balanced tokens in parentheses or in braces. -/
theorem enclosed (balanced : Balanced count inner)
    (pair : opening.tag = .leftParen ∧ closing.tag = .rightParen ∨
      opening.tag = .leftBrace ∧ closing.tag = .rightBrace) :
    Balanced count (opening :: (inner ++ [closing])) := by
  have parentheses := balanced.parentheses
  have braces := balanced.braces
  have whole : tally .leftParen (opening :: (inner ++ [closing])) =
        tally .rightParen (opening :: (inner ++ [closing])) ∧
      tally .leftBrace (opening :: (inner ++ [closing])) =
        tally .rightBrace (opening :: (inner ++ [closing])) + count := by
    obtain ⟨opens, closes⟩ | ⟨opens, closes⟩ := pair <;>
      simp only [Token.tally_cons, Token.tally_append, Token.tally_nil, opens, closes,
        reduceCtorEq, if_true, if_false] <;> omega
  refine ⟨whole.1, whole.2, fun start within => ?_⟩
  obtain rfl | ⟨others, rfl, inside⟩ := List.prefix_cons_iff.mp within
  · exact ⟨Nat.le_refl _, Nat.le_refl _⟩
  obtain rfl | before := List.prefix_concat_iff.mp inside
  · omega
  · have := balanced.initial others before
    obtain ⟨opens, _⟩ | ⟨opens, _⟩ := pair <;>
      simp only [Token.tally_cons, opens, reduceCtorEq, if_true, if_false] <;> omega

end Balanced

/-- Balanced tokens stand between the tokens and the rest. -/
abbrev Balances (count : Nat) : List Token → List Token → Prop :=
  Spans (Balanced count)

namespace Balances

variable {token opening closing : Token}

theorem append (one : Balances count tokens middle) (other : Balances more middle rest) :
    Balances (count + more) tokens rest :=
  one.join other .append

theorem single (plain : token.tag ∉ brackets) : Balances 0 (token :: rest) rest :=
  ⟨[token], rfl, .single plain⟩

theorem cons (plain : token.tag ∉ brackets) (other : Balances count tokens rest) :
    Balances count (token :: tokens) rest := by
  have joined := (single plain).append other
  rwa [Nat.zero_add] at joined

theorem enclosed (inner : Balances count tokens (closing :: rest))
    (pair : opening.tag = .leftParen ∧ closing.tag = .rightParen ∨
      opening.tag = .leftBrace ∧ closing.tag = .rightBrace) :
    Balances count (opening :: tokens) rest := by
  obtain ⟨taken, rfl, balanced⟩ := inner
  exact ⟨opening :: (taken ++ [closing]), by simp, balanced.enclosed pair⟩

theorem parenthesized (opens : opening.tag = .leftParen)
    (inner : Balances count tokens (closing :: rest)) (closes : closing.tag = .rightParen) :
    Balances count (opening :: tokens) rest :=
  inner.enclosed (.inl ⟨opens, closes⟩)

theorem terminated {after : List Token} (inner : Balances count tokens after)
    (ends : Terminated after rest) : Balances count tokens rest := by
  cases ends with
  | semicolon tagged => exact inner.append (single (by rw [tagged]; decide))
  | complete _ => exact inner

end Balances

/-- A derivation leaves as many braces open as there are blocks that the end of the input closes. -/
theorem Unclosed.balances (unclosed : Unclosed count derivation) :
    Balances count tokens rest := by
  induction unclosed with
  | infixed joins _ _ _ left right => exact left.append (right.cons (ne_bracket_of_operators joins))
  | prefixed stands _ operand => exact operand.cons (ne_bracket_of_signs stands)
  | call _ _ callee given => exact callee.append given
  | descend _ _ inside => exact inside
  | primary _ inside => exact inside
  | identifier tagged => exact .single (by rw [tagged]; decide)
  | integer tagged _ => exact .single (by rw [tagged]; decide)
  | truth tagged => exact .single (by rw [tagged]; decide)
  | falsity tagged => exact .single (by rw [tagged]; decide)
  | grouped opens closes _ inside => exact .parenthesized opens inside closes
  | conditional tagged opens closes _ _ condition yes =>
    have asked := Balances.parenthesized opens condition closes
    exact (asked.append yes).cons (by rw [tagged]; decide)
  | alternative tagged opens closes turns _ _ _ condition yes no =>
    have asked := Balances.parenthesized opens condition closes
    have turned := yes.append (no.cons (by rw [turns]; decide))
    exact (asked.append turned).cons (by rw [tagged]; decide)
  | function tagged _ _ names body => exact (names.append body).cons (by rw [tagged]; decide)
  | item _ inside => exact inside
  | items separates _ _ inside after => exact inside.append (after.cons (by rw [separates]; decide))
  | noArguments opens closes => exact .parenthesized opens ⟨[], rfl, .nil⟩ closes
  | arguments opens closes _ inside => exact .parenthesized opens inside closes
  | name tagged => exact .single (by rw [tagged]; decide)
  | names tagged separates _ after =>
    exact (after.cons (by rw [separates]; decide)).cons (by rw [tagged]; decide)
  | noParameters opens closes => exact .parenthesized opens ⟨[], rfl, .nil⟩ closes
  | parameters opens closes _ inside => exact .parenthesized opens inside closes
  | closedBlock opens tagged _ inside => exact inside.enclosed (.inr ⟨opens, tagged⟩)
  | openBlock opens _ _ inside =>
    obtain ⟨taken, rfl, balanced⟩ := inside
    exact ⟨_ :: taken, rfl, balanced.unclosed opens⟩
  | binding tagged named assigns ends _ value =>
    have assigned := value.cons (by rw [assigns]; decide)
    have bound := assigned.cons (by rw [named]; decide)
    exact (bound.cons (by rw [tagged]; decide)).terminated ends
  | bareReturn tagged ends =>
    exact (Balances.single (by rw [ends]; decide)).cons (by rw [tagged]; decide)
  | lastReturn tagged _ => exact .single (by rw [tagged]; decide)
  | returning tagged ends _ value => exact (value.cons (by rw [tagged]; decide)).terminated ends
  | expression ends _ value => exact value.terminated ends
  | empty => exact ⟨[], rfl, .nil⟩
  | statements _ _ tree trees => exact tree.append trees

/-! ### Closing blocks -/

/-- The token of a closing brace. -/
def closingBrace : Token :=
  ⟨.rightBrace, "\x7d"⟩

/-- This many closing braces. -/
def closingBraces (count : Nat) : List Token :=
  List.replicate count closingBrace

variable {piece other first second : Piece} {taken follow : List Token} {next : Tag}

/-- What may come after some closing braces: nothing, or another closing brace if no block is left
open. -/
def Follows (closed count : Nat) (follow : List Token) : Prop :=
  follow = [] ∨ closed = count ∧ (Token.first follow).tag = .rightBrace

/-- Before these tokens a block or a program may end. -/
def Ending (rest : List Token) : Prop :=
  (Token.first rest).tag = .rightBrace ∨ (Token.first rest).tag = .endOfInput

theorem Follows.ending {closed : Nat} (follows : Follows closed count follow) : Ending follow := by
  obtain rfl | ⟨_, brace⟩ := follows
  · exact .inr rfl
  · exact .inl brace

/-- The tokens make a piece in which the end of the input closes this many blocks, and with closing
braces after them they make one in which it closes fewer. -/
structure Closable (count : Nat) (piece : Piece) (taken : List Token) (next : Tag) : Prop where
  present : taken = [] → count = 0
  unended : ∀ token ∈ taken.head?, token.tag ≠ .endOfInput
  last : count ≠ 0 → next = .endOfInput
  closes : ∀ closed follow, closed ≤ count → Follows closed count follow →
    piece (taken ++ (closingBraces closed ++ follow)) follow

/-- A piece that takes no token comes after whatever the first one leaves open. -/
theorem Closable.append_nil (one : Closable count first taken next)
    (two : Closable more second [] next) :
    Closable (count + more) (first.andThen second) taken next := by
  rw [two.present rfl, Nat.add_zero]
  refine ⟨one.present, one.unended, one.last, fun closed follow few follows => ?_⟩
  exact ⟨follow, one.closes closed follow few follows,
    two.closes 0 follow (Nat.zero_le _) (follows.imp_right fun ⟨_, brace⟩ =>
      ⟨(two.present rfl).symm, brace⟩)⟩

/-- Before a piece that takes some token no block is left open. -/
theorem Closable.append_cons {token : Token} {others : List Token}
    (one : Closable count first taken token.tag) (movable : Movable first taken token.tag)
    (two : Closable more second (token :: others) next) :
    Closable (count + more) (first.andThen second) (taken ++ token :: others) next := by
  have closed : count = 0 := by_contra fun some => two.unended token rfl (one.last some)
  rw [closed, Nat.zero_add]
  refine ⟨by simp, ?_, two.last, fun closed follow few follows => ?_⟩
  · cases taken with
    | nil => exact two.unended
    | cons token taken => exact one.unended
  · rw [List.append_assoc]
    exact ⟨_, movable.moved _ rfl, two.closes closed follow few follows⟩

/-- From the tokens to the rest there stands the piece, and its blocks can be closed. -/
def Closes (count : Nat) (piece : Piece) (tokens rest : List Token) : Prop :=
  ∃ taken, tokens = taken ++ rest ∧ Closable count piece taken (Token.first rest).tag

namespace Closes

theorem map (closes : Closes count piece tokens rest)
    (build : ∀ tokens rest, piece tokens rest → other tokens rest) :
    Closes count other tokens rest := by
  obtain ⟨taken, split, closable⟩ := closes
  refine ⟨taken, split, closable.present, closable.unended, closable.last, ?_⟩
  exact fun closed follow few follows => build _ _ (closable.closes closed follow few follows)

/-- One piece and then another, where the first can be moved. -/
theorem append (one : Closes count first tokens middle) (moves : Moves first tokens middle)
    (two : Closes more second middle rest) :
    Closes (count + more) (first.andThen second) tokens rest := by
  obtain ⟨taken, rfl, closable⟩ := one
  obtain ⟨others, rfl, closableMore⟩ := two
  cases others with
  | nil => exact ⟨taken, rfl, closable.append_nil closableMore⟩
  | cons token others =>
    exact ⟨taken ++ token :: others, (List.append_assoc _ _ _).symm,
      closable.append_cons (moves.movable rfl) closableMore⟩

/-- A piece of one token. -/
theorem token {token : Token} (unended : token.tag ≠ .endOfInput)
    (derives : ∀ rest, Ending rest → piece (token :: rest) rest) :
    Closes 0 piece (token :: rest) rest := by
  refine ⟨[token], rfl, nofun, ?_, absurd rfl, fun closed follow few follows => ?_⟩
  · rintro _ ⟨⟩
    exact unended
  · obtain rfl := Nat.le_zero.mp few
    exact derives follow follows.ending

theorem single {token : Token} (unended : token.tag ≠ .endOfInput) :
    Closes 0 (.single token) (token :: rest) rest :=
  .token unended fun _ _ => rfl

/-- A piece that takes nothing. -/
theorem nothing (derives : ∀ rest, Ending rest → piece rest rest) : Closes 0 piece rest rest := by
  refine ⟨[], rfl, fun _ => rfl, nofun, absurd rfl, fun closed follow few follows => ?_⟩
  obtain rfl := Nat.le_zero.mp few
  exact derives follow follows.ending

/-- A token before a piece. -/
theorem cons {token : Token} (unended : token.tag ≠ .endOfInput)
    (closes : Closes count piece tokens rest) :
    Closes count ((Piece.single token).andThen piece) (token :: tokens) rest := by
  obtain ⟨taken, rfl, closable⟩ := closes
  refine ⟨token :: taken, rfl, nofun, ?_, closable.last, fun closed follow few follows => ?_⟩
  · rintro _ ⟨⟩
    exact unended
  · exact ⟨_, rfl, closable.closes closed follow few follows⟩

/-- A token after a piece. -/
theorem concat {token : Token} (closes : Closes count piece tokens (token :: rest))
    (moves : Moves piece tokens (token :: rest)) (unended : token.tag ≠ .endOfInput) :
    Closes count (piece.andThen (.single token)) tokens rest :=
  closes.append moves (single unended)

theorem terminated {after : List Token} (ends : Terminated after rest) :
    Closes 0 Terminated after rest := by
  cases ends with
  | semicolon tagged => exact .token (by rw [tagged]; decide) fun _ _ => .semicolon tagged
  | complete _ =>
    refine .nothing fun _ ending => .complete ?_
    obtain brace | ended := ending
    · rw [brace]; decide
    · rw [ended]; decide

/-- A block is left open by the end of the input, or closed by the first brace that its statements
leave. -/
theorem openBlock {brace : Token} {trees : List Statement} (opens : brace.tag = .leftBrace)
    (ended : (Token.first rest).tag = .endOfInput)
    (inside : Closes count (Derives (.statements trees)) tokens rest) :
    Closes (count + 1) (Derives (.block trees)) (brace :: tokens) rest := by
  obtain ⟨taken, rfl, closable⟩ := inside
  refine ⟨brace :: taken, rfl, nofun, ?_, fun _ => ended, fun closed follow few follows => ?_⟩
  · rintro _ ⟨⟩
    rw [opens]
    decide
  by_cases all : closed = count + 1
  · have braces : closingBraces closed ++ follow =
        closingBraces count ++ closingBrace :: follow := by
      rw [all, closingBraces, List.replicate_succ', List.append_assoc]
      rfl
    rw [braces]
    exact .block opens (closable.closes count _ le_rfl (.inr ⟨rfl, rfl⟩)) (.brace rfl)
  · obtain rfl : follow = [] := follows.resolve_right fun ⟨same, _⟩ => all same
    exact .block opens (closable.closes closed [] (by omega) (.inl rfl)) (.ended rfl)

end Closes

theorem Unclosed.moves (_ : Unclosed count derivation) : Moves (Derives construct) tokens rest :=
  derivation.moves

/-- The blocks that the end of the input closes can be closed by braces, from the innermost one
outwards. -/
theorem Unclosed.closes (unclosed : Unclosed count derivation) :
    Closes count (Derives construct) tokens rest := by
  induction unclosed with
  | infixed joins below first _ left right =>
    refine (left.append first.moves (right.cons (ne_of_operators joins rfl))).map ?_
    rintro _ _ ⟨_, first, _, rfl, second⟩
    exact .infixed first joins below second
  | prefixed stands _ operand =>
    refine (operand.cons (ne_of_signs stands (by decide))).map ?_
    rintro _ _ ⟨_, rfl, inner⟩
    exact .prefixed stands inner
  | call first _ callee given =>
    refine (callee.append first.moves given).map ?_
    rintro _ _ ⟨_, head, tail⟩
    exact .call head tail
  | descend below _ inside => exact inside.map fun _ _ => .descend below
  | primary _ inside => exact inside.map fun _ _ => .primary
  | identifier tagged => exact .token (by rw [tagged]; decide) fun _ _ => .identifier tagged
  | integer tagged fits => exact .token (by rw [tagged]; decide) fun _ _ => .integer tagged fits
  | truth tagged => exact .token (by rw [tagged]; decide) fun _ _ => .truth tagged
  | falsity tagged => exact .token (by rw [tagged]; decide) fun _ _ => .falsity tagged
  | grouped opens closes first inside =>
    have closed := inside.concat first.moves (by rw [closes]; decide)
    refine (closed.cons (by rw [opens]; decide)).map ?_
    rintro _ _ ⟨_, rfl, _, inner, rfl⟩
    exact .grouped opens inner closes
  | conditional tagged opens closes first _ condition yes =>
    refine (((condition.append first.moves (yes.cons (by rw [closes]; decide))).cons
      (by rw [opens]; decide)).cons (by rw [tagged]; decide)).map ?_
    rintro _ _ ⟨_, rfl, _, rfl, _, inner, _, rfl, block⟩
    exact .conditional tagged opens inner closes block
  | alternative tagged opens closes turns first second _ condition yes no =>
    have turned := yes.append second.moves (no.cons (by rw [turns]; decide))
    refine (((condition.append first.moves (turned.cons (by rw [closes]; decide))).cons
      (by rw [opens]; decide)).cons (by rw [tagged]; decide)).map ?_
    rintro _ _ ⟨_, rfl, _, rfl, _, inner, _, rfl, _, block, _, rfl, other⟩
    exact .alternative tagged opens inner closes block turns other
  | function tagged first _ names body =>
    refine ((names.append first.moves body).cons (by rw [tagged]; decide)).map ?_
    rintro _ _ ⟨_, rfl, _, parameters, block⟩
    exact .function tagged parameters block
  | item _ inside => exact inside.map fun _ _ => .item
  | items separates first _ inside after =>
    refine (inside.append first.moves (after.cons (by rw [separates]; decide))).map ?_
    rintro _ _ ⟨_, inner, _, rfl, others⟩
    exact .items inner separates others
  | noArguments opens closes =>
    refine ((Closes.single (by rw [closes]; decide)).cons (by rw [opens]; decide)).map ?_
    rintro _ _ ⟨_, rfl, rfl⟩
    exact .noArguments opens closes
  | arguments opens closes first inside =>
    have closed := inside.concat first.moves (by rw [closes]; decide)
    refine (closed.cons (by rw [opens]; decide)).map ?_
    rintro _ _ ⟨_, rfl, _, inner, rfl⟩
    exact .arguments opens inner closes
  | name tagged => exact .token (by rw [tagged]; decide) fun _ _ => .name tagged
  | names tagged separates _ after =>
    refine ((after.cons (by rw [separates]; decide)).cons (by rw [tagged]; decide)).map ?_
    rintro _ _ ⟨_, rfl, _, rfl, tail⟩
    exact .names tagged separates tail
  | noParameters opens closes =>
    refine ((Closes.single (by rw [closes]; decide)).cons (by rw [opens]; decide)).map ?_
    rintro _ _ ⟨_, rfl, rfl⟩
    exact .noParameters opens closes
  | parameters opens closes first inside =>
    have closed := inside.concat first.moves (by rw [closes]; decide)
    refine (closed.cons (by rw [opens]; decide)).map ?_
    rintro _ _ ⟨_, rfl, _, inner, rfl⟩
    exact .parameters opens inner closes
  | closedBlock opens tagged first inside =>
    have closed := inside.concat first.moves (by rw [tagged]; decide)
    refine (closed.cons (by rw [opens]; decide)).map ?_
    rintro _ _ ⟨_, rfl, _, inner, rfl⟩
    exact .block opens inner (.brace tagged)
  | openBlock opens ended _ inside => exact .openBlock opens ended inside
  | binding tagged named assigns ends first value =>
    refine ((((value.append first.moves (.terminated ends)).cons (by rw [assigns]; decide)).cons
      (by rw [named]; decide)).cons (by rw [tagged]; decide)).map ?_
    rintro _ _ ⟨_, rfl, _, rfl, _, rfl, _, inner, ends⟩
    exact .binding tagged named assigns inner ends
  | bareReturn tagged ends =>
    refine ((Closes.single (by rw [ends]; decide)).cons (by rw [tagged]; decide)).map ?_
    rintro _ _ ⟨_, rfl, rfl⟩
    exact .bareReturn tagged ends
  | lastReturn tagged _ => exact .token (by rw [tagged]; decide) fun _ => .lastReturn tagged
  | returning tagged ends first value =>
    refine ((value.append first.moves (.terminated ends)).cons (by rw [tagged]; decide)).map ?_
    rintro _ _ ⟨_, rfl, _, inner, ends⟩
    exact .returning tagged inner ends
  | expression ends first value =>
    refine (value.append first.moves (.terminated ends)).map ?_
    rintro _ _ ⟨_, inner, ends⟩
    exact .expression inner ends
  | empty => exact .nothing fun _ _ => .empty
  | statements first _ tree trees =>
    refine (tree.append first.moves trees).map ?_
    rintro _ _ ⟨_, first, others⟩
    exact .statements first others

end Monkey.Grammar
