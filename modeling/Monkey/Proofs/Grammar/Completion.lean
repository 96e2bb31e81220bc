/-
This file is about what stands around a derivation. A derivation takes tokens of
which none is illegal, and depends on what comes after them only by the tag that
comes next. Where it ends because of that tag, a closing brace or a semicolon
makes it end before anything.

So what was derived can stand before other tokens, and what was begun can be
completed: tokens are completable to a piece if some more tokens, each of which
can be written, make them one whatever comes after. Pieces are relations between
the tokens from which they start and those that they leave, so that constructs
can be taken apart into the pieces that stand one after the other in them.
-/

import Monkey.Proofs.Grammar.Layers
import Monkey.Proofs.Scanning.Separation

namespace Monkey.Grammar

open Token (Written)

/-! ### Pieces -/

/-- What stands between the tokens from which it starts and those that it leaves. -/
abbrev Piece := List Token → List Token → Prop

namespace Piece

/-- Any construct of a shape. -/
def any {Tree : Type} (shape : Tree → Construct) : Piece :=
  fun tokens rest => ∃ tree, Derives (shape tree) tokens rest

/-- This token. -/
def single (token : Token) : Piece :=
  fun tokens rest => tokens = token :: rest

/-- One token with the tag. -/
def tagged (tag : Tag) : Piece :=
  fun tokens rest => ∃ token, token.tag = tag ∧ tokens = token :: rest

/-- One piece and then another. -/
def andThen (first second : Piece) : Piece :=
  fun tokens rest => ∃ middle, first tokens middle ∧ second middle rest

/-- A piece or nothing. -/
def optional (piece : Piece) : Piece :=
  fun tokens rest => tokens = rest ∨ piece tokens rest

end Piece

/-- More tokens, all of which can be written, make the piece of those taken, before any others. -/
def Completable (piece : Piece) (taken : List Token) : Prop :=
  ∃ completion, (∀ token ∈ completion, Written token) ∧
    ∀ rest, piece (taken ++ (completion ++ rest)) rest

/-- The tokens are legal and make the piece before the tag, and more tokens make it before any. -/
structure Movable (piece : Piece) (taken : List Token) (next : Tag) : Prop where
  legal : ∀ token ∈ taken, token.tag ≠ .illegal
  moved : ∀ rest, (Token.first rest).tag = next → piece (taken ++ rest) rest
  completable : Completable piece taken

/-- From the tokens to the rest there stands the piece, and it can be moved. -/
def Moves (piece : Piece) (tokens rest : List Token) : Prop :=
  ∃ taken, tokens = taken ++ rest ∧ Movable piece taken (Token.first rest).tag

variable {piece other first second : Piece} {taken more tokens middle rest : List Token}
  {next : Tag}

theorem Moves.movable (moves : Moves piece tokens rest) (split : tokens = taken ++ rest) :
    Movable piece taken (Token.first rest).tag := by
  obtain ⟨same, splitSame, movable⟩ := moves
  obtain rfl : taken = same := List.append_left_injective rest (split.symm.trans splitSame)
  exact movable

/-! ### Pieces one after the other -/

theorem Completable.map (completable : Completable piece taken)
    (build : ∀ tokens rest, piece tokens rest → other tokens rest) : Completable other taken := by
  obtain ⟨completion, written, derives⟩ := completable
  exact ⟨completion, written, fun rest => build _ _ (derives rest)⟩

theorem Movable.map (movable : Movable piece taken next)
    (build : ∀ tokens rest, piece tokens rest → other tokens rest) : Movable other taken next :=
  ⟨movable.legal, fun rest same => build _ _ (movable.moved rest same),
    movable.completable.map build⟩

theorem Moves.map (moves : Moves piece tokens rest)
    (build : ∀ tokens rest, piece tokens rest → other tokens rest) : Moves other tokens rest := by
  obtain ⟨taken, split, movable⟩ := moves
  exact ⟨taken, split, movable.map build⟩

/-- A piece that is completed can be followed by a whole one. -/
theorem Completable.andThen (one : Completable first taken) (two : Completable second []) :
    Completable (first.andThen second) taken := by
  obtain ⟨completion, written, derives⟩ := one
  obtain ⟨completion', written', derives'⟩ := two
  refine ⟨completion ++ completion', List.forall_mem_append.mpr ⟨written, written'⟩, fun rest => ?_⟩
  rw [List.append_assoc]
  exact ⟨completion' ++ rest, derives _, derives' rest⟩

/-- A piece can be followed by one that is completed, if that starts as what followed before. -/
theorem Movable.completable_append (one : Movable first taken next)
    (follows : (Token.first (more ++ rest)).tag = next) (two : Completable second more) :
    Completable (first.andThen second) (taken ++ more) := by
  cases more with
  | nil =>
    rw [List.append_nil]
    exact one.completable.andThen two
  | cons token more =>
    obtain ⟨completion, written, derives⟩ := two
    refine ⟨completion, written, fun rest => ?_⟩
    rw [List.append_assoc]
    exact ⟨_, one.moved _ follows, derives rest⟩

theorem Movable.append (one : Movable first taken (Token.first (more ++ rest)).tag)
    (two : Movable second more (Token.first rest).tag) :
    Movable (first.andThen second) (taken ++ more) (Token.first rest).tag where
  legal := List.forall_mem_append.mpr ⟨one.legal, two.legal⟩
  moved other same := by
    rw [List.append_assoc]
    have follows : (Token.first (more ++ other)).tag = (Token.first (more ++ rest)).tag := by
      cases more with
      | nil => exact same
      | cons token more => rfl
    exact ⟨_, one.moved _ follows, two.moved other same⟩
  completable := one.completable_append rfl two.completable

theorem Moves.append (one : Moves first tokens middle) (two : Moves second middle rest) :
    Moves (first.andThen second) tokens rest := by
  obtain ⟨taken, rfl, movable⟩ := one
  obtain ⟨more, rfl, movableMore⟩ := two
  exact ⟨taken ++ more, (List.append_assoc _ _ _).symm, movable.append movableMore⟩

/-! ### Single tokens -/

theorem movable_token {token : Token} (legal : token.tag ≠ .illegal)
    (derives : ∀ rest, piece (token :: rest) rest) : Movable piece [token] next where
  legal := List.forall_mem_singleton.mpr legal
  moved rest _ := derives rest
  completable := ⟨[], List.forall_mem_nil _, derives⟩

theorem moves_single {token : Token} {tag : Tag} (same : token.tag = tag)
    (legal : tag ≠ .illegal) : Moves (.single token) (token :: rest) rest :=
  ⟨[token], rfl, movable_token (same ▸ legal) fun _ => rfl⟩

theorem moves_tagged {token : Token} {tag : Tag} (same : token.tag = tag)
    (legal : tag ≠ .illegal) : Moves (.tagged tag) (token :: rest) rest :=
  (moves_single same legal).map fun _ _ split => ⟨token, same, split⟩

/-- A token in front of what can be completed. -/
theorem Completable.cons (completable : Completable piece taken) (token : Token) :
    Completable ((Piece.tagged token.tag).andThen piece) (token :: taken) := by
  obtain ⟨completion, written, derives⟩ := completable
  exact ⟨completion, written, fun rest => ⟨_, ⟨token, rfl, rfl⟩, derives rest⟩⟩

/-- A token that can be written completes nothing at all to itself. -/
theorem completable_tagged {token : Token} (written : Written token) :
    Completable (.tagged token.tag) [] :=
  ⟨[token], List.forall_mem_singleton.mpr written, fun _ => ⟨token, rfl, rfl⟩⟩

theorem completable_sign {mark : Char} {tag : Tag} (known : (mark, tag) ∈ Token.signs) :
    Completable (.tagged tag) [] := by
  have written : Written ⟨tag, String.singleton mark⟩ := .sign known
  exact completable_tagged written

theorem completable_name : Completable (.tagged .identifier) [] := by
  have letters : ∀ byte ∈ Token.bytesOf "x", Token.isLetter byte :=
    List.all_eq_true.mp (by decide)
  have written : Written ⟨.identifier, "x"⟩ := .name (by decide) letters rfl (by decide) rfl
  exact completable_tagged written

theorem completable_terminated : Completable Terminated [] := by
  refine (completable_sign (by decide : (';', .semicolon) ∈ Token.signs)).map ?_
  rintro _ _ ⟨token, same, rfl⟩
  exact .semicolon same

theorem completable_closed : Completable Closed [] := by
  refine (completable_sign (by decide : ('}', .rightBrace) ∈ Token.signs)).map ?_
  rintro _ _ ⟨token, same, rfl⟩
  exact .brace same

/-! ### Ends that depend on the next tag -/

theorem Terminated.moves {after : List Token} (ends : Terminated after rest) :
    Moves Terminated after rest := by
  cases ends with
  | @semicolon token _ same =>
    exact ⟨[token], rfl, movable_token (by rw [same]; decide) fun _ => .semicolon same⟩
  | complete stops =>
    exact ⟨[], rfl, List.forall_mem_nil _, fun other same => .complete (same ▸ stops),
      completable_terminated⟩

theorem Closed.moves {after : List Token} (closes : Closed after rest) :
    Moves Closed after rest := by
  cases closes with
  | @brace token _ same =>
    exact ⟨[token], rfl, movable_token (by rw [same]; decide) fun _ => .brace same⟩
  | ended ended =>
    exact ⟨[], rfl, List.forall_mem_nil _, fun other same => .ended (same.trans ended),
      completable_closed⟩

/-- A bare return that ends because of the next tag is ended by a semicolon before any. -/
theorem moves_lastReturn {word : Token} (same : word.tag = .returning)
    (ends : (Token.first rest).tag = .rightBrace ∨ (Token.first rest).tag = .endOfInput) :
    Moves (Derives (.statement (.returning none))) (word :: rest) rest := by
  refine ⟨[word], rfl, List.forall_mem_singleton.mpr (by rw [same]; decide), ?_, ?_⟩
  · exact fun other tag => .lastReturn same (tag ▸ ends)
  · obtain ⟨completion, written, derives⟩ :=
      completable_sign (by decide : (';', .semicolon) ∈ Token.signs)
    refine ⟨completion, written, fun rest => ?_⟩
    obtain ⟨semicolon, ends, split⟩ := derives rest
    exact split ▸ .bareReturn same ends

/-! ### Derivations -/

/-- Whatever derives can be moved. -/
theorem Derives.moves {construct : Construct} {tokens rest : List Token}
    (derivation : Derives construct tokens rest) : Moves (Derives construct) tokens rest := by
  induction derivation with
  | infixed _ joins below _ left right =>
    refine (left.append ((moves_tagged rfl (ne_of_operators joins rfl)).append right)).map ?_
    rintro _ _ ⟨_, first, _, ⟨sign, same, rfl⟩, second⟩
    exact .infixed first (same ▸ joins) below second
  | prefixed stands _ operand =>
    refine ((moves_tagged rfl (ne_of_signs stands (by decide))).append operand).map ?_
    rintro _ _ ⟨_, ⟨sign, same, rfl⟩, inner⟩
    exact .prefixed (same ▸ stands) inner
  | call _ _ callee given =>
    refine (callee.append given).map ?_
    rintro _ _ ⟨_, head, tail⟩
    exact .call head tail
  | descend below _ inner => exact inner.map fun _ _ => .descend below
  | primary _ inner => exact inner.map fun _ _ => .primary
  | identifier same =>
    exact (moves_single same (by decide)).map fun _ _ split => split ▸ .identifier same
  | integer same fits =>
    exact (moves_single same (by decide)).map fun _ _ split => split ▸ .integer same fits
  | truth same =>
    exact (moves_single same (by decide)).map fun _ _ split => split ▸ .truth same
  | falsity same =>
    exact (moves_single same (by decide)).map fun _ _ split => split ▸ .falsity same
  | grouped opens _ closes inner =>
    refine ((moves_tagged opens (by decide)).append
      (inner.append (moves_tagged closes (by decide)))).map ?_
    rintro _ _ ⟨_, ⟨_, opens, rfl⟩, _, inner, _, closes, rfl⟩
    exact .grouped opens inner closes
  | conditional same opens _ closes _ condition block =>
    refine ((moves_tagged same (by decide)).append ((moves_tagged opens (by decide)).append
      (condition.append ((moves_tagged closes (by decide)).append block)))).map ?_
    rintro _ _ ⟨_, ⟨_, same, rfl⟩, _, ⟨_, opens, rfl⟩, _, condition, _, ⟨_, closes, rfl⟩, block⟩
    exact .conditional same opens condition closes block
  | alternative same opens _ closes _ turns _ condition block other =>
    refine ((moves_tagged same (by decide)).append ((moves_tagged opens (by decide)).append
      (condition.append ((moves_tagged closes (by decide)).append (block.append
        ((moves_tagged turns (by decide)).append other)))))).map ?_
    rintro _ _ ⟨_, ⟨_, same, rfl⟩, _, ⟨_, opens, rfl⟩, _, condition, _, ⟨_, closes, rfl⟩, _, block,
      _, ⟨_, turns, rfl⟩, other⟩
    exact .alternative same opens condition closes block turns other
  | function same _ _ parameters block =>
    refine ((moves_tagged same (by decide)).append (parameters.append block)).map ?_
    rintro _ _ ⟨_, ⟨_, same, rfl⟩, _, parameters, block⟩
    exact .function same parameters block
  | item _ inner => exact inner.map fun _ _ => .item
  | items _ separates _ inner others =>
    refine (inner.append ((moves_tagged separates (by decide)).append others)).map ?_
    rintro _ _ ⟨_, inner, _, ⟨_, separates, rfl⟩, others⟩
    exact .items inner separates others
  | noArguments opens closes =>
    refine ((moves_tagged opens (by decide)).append (moves_tagged closes (by decide))).map ?_
    rintro _ _ ⟨_, ⟨_, opens, rfl⟩, _, closes, rfl⟩
    exact .noArguments opens closes
  | arguments opens _ closes inner =>
    refine ((moves_tagged opens (by decide)).append
      (inner.append (moves_tagged closes (by decide)))).map ?_
    rintro _ _ ⟨_, ⟨_, opens, rfl⟩, _, inner, _, closes, rfl⟩
    exact .arguments opens inner closes
  | name same => exact (moves_single same (by decide)).map fun _ _ split => split ▸ .name same
  | names same separates _ others =>
    refine ((moves_single same (by decide)).append
      ((moves_tagged separates (by decide)).append others)).map ?_
    rintro _ _ ⟨_, rfl, _, ⟨_, separates, rfl⟩, others⟩
    exact .names same separates others
  | noParameters opens closes =>
    refine ((moves_tagged opens (by decide)).append (moves_tagged closes (by decide))).map ?_
    rintro _ _ ⟨_, ⟨_, opens, rfl⟩, _, closes, rfl⟩
    exact .noParameters opens closes
  | parameters opens _ closes inner =>
    refine ((moves_tagged opens (by decide)).append
      (inner.append (moves_tagged closes (by decide)))).map ?_
    rintro _ _ ⟨_, ⟨_, opens, rfl⟩, _, inner, _, closes, rfl⟩
    exact .parameters opens inner closes
  | block opens _ closes inner =>
    refine ((moves_tagged opens (by decide)).append (inner.append closes.moves)).map ?_
    rintro _ _ ⟨_, ⟨_, opens, rfl⟩, _, inner, closes⟩
    exact .block opens inner closes
  | binding same named assigns _ ends value =>
    refine ((moves_tagged same (by decide)).append ((moves_single named (by decide)).append
      ((moves_tagged assigns (by decide)).append (value.append ends.moves)))).map ?_
    rintro _ _ ⟨_, ⟨_, same, rfl⟩, _, rfl, _, ⟨_, assigns, rfl⟩, _, value, ends⟩
    exact .binding same named assigns value ends
  | bareReturn same ends =>
    refine ((moves_tagged same (by decide)).append (moves_tagged ends (by decide))).map ?_
    rintro _ _ ⟨_, ⟨_, same, rfl⟩, _, ends, rfl⟩
    exact .bareReturn same ends
  | lastReturn same ends => exact moves_lastReturn same ends
  | returning same _ ends value =>
    refine ((moves_tagged same (by decide)).append (value.append ends.moves)).map ?_
    rintro _ _ ⟨_, ⟨_, same, rfl⟩, _, value, ends⟩
    exact .returning same value ends
  | expression _ ends value =>
    refine (value.append ends.moves).map ?_
    rintro _ _ ⟨_, value, ends⟩
    exact .expression value ends
  | empty =>
    exact ⟨[], rfl, List.forall_mem_nil _, fun _ _ => .empty, [], List.forall_mem_nil _,
      fun _ => .empty⟩
  | statements _ _ first others =>
    refine (first.append others).map ?_
    rintro _ _ ⟨_, first, others⟩
    exact .statements first others

end Monkey.Grammar
