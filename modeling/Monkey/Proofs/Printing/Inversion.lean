/-
This file shows that the canonical text of a plain program is read back as the
program. The text of an expression is laid out as tokens that derive it from the
tightest layer, whatever comes after its last word: an operator brings its own
parentheses, and a call is a call whatever stands before the parenthesis. So no
precedence is ever asked for, and every text can stand where any other can.
-/

import Monkey.Proofs.Grammar.Parsing
import Monkey.Proofs.Printing.Plain

namespace Monkey

open Grammar Token

/-! ### Signs and words of canonical texts -/

/-- A sign that joins no equals sign is laid out as itself before anything. -/
theorem laidOut_mark {mark : Char} {tag : Tag} (known : (mark, tag) ∈ Token.signs)
    (alone : tag ≠ .assign ∧ tag ≠ .bang) (rest : List UInt8) :
    LaidOut (String.singleton mark) [⟨tag, String.singleton mark⟩] rest :=
  laidOut_sign known fun joins => absurd joins (not_or.mpr alone)

/-- The tokens of parentheses. -/
def leftParenthesis : Token := ⟨.leftParen, "("⟩

def rightParenthesis : Token := ⟨.rightParen, ")"⟩

theorem laidOut_leftParen (rest : List UInt8) : LaidOut "(" [leftParenthesis] rest :=
  laidOut_mark (by decide : ('(', .leftParen) ∈ Token.signs) (by decide) rest

theorem laidOut_rightParen (rest : List UInt8) : LaidOut ")" [rightParenthesis] rest :=
  laidOut_mark (by decide : (')', .rightParen) ∈ Token.signs) (by decide) rest

theorem edge_rightParen (rest : List UInt8) : Edge (bytesOf ")" ++ rest) :=
  edge_append (by decide) (by decide) rest

theorem laidOut_semicolon (rest : List UInt8) : LaidOut ";" [⟨.semicolon, ";"⟩] rest :=
  laidOut_mark (by decide : (';', .semicolon) ∈ Token.signs) (by decide) rest

theorem edge_semicolon (rest : List UInt8) : Edge (bytesOf ";" ++ rest) :=
  edge_append (by decide) (by decide) rest

theorem laidOut_comma (rest : List UInt8) : LaidOut ", " [⟨.comma, ","⟩] rest :=
  (laidOut_mark (by decide : (',', .comma) ∈ Token.signs) (by decide) _).append (laidOut_space rest)

theorem laidOut_assign (rest : List UInt8) : LaidOut " = " [⟨.assign, "="⟩] rest := by
  have sign : LaidOut "=" [⟨.assign, "="⟩] (bytesOf " " ++ rest) :=
    laidOut_sign (by decide : ('=', .assign) ∈ Token.signs) fun _ => by
      have blank : bytesOf " " = [0x20] := by decide
      rw [blank]
      exact fun same => absurd (Option.some.inj same) (by decide)
  exact ((laidOut_space _).append sign).append (laidOut_space rest)

theorem laidOut_keyword {word : String} {tag : Tag} (reserved : (word, tag) ∈ keywords)
    {rest : List UInt8} (edge : Edge rest) : LaidOut word [⟨tag, word⟩] rest := by
  have known : ∀ entry ∈ keywords, entry.1 ≠ "" ∧ (bytesOf entry.1).all isLetter := by decide
  obtain ⟨present, letters⟩ := known _ reserved
  have laid := laidOut_word present (List.all_eq_true.mp letters) edge
  rwa [wordTag_of_mem reserved] at laid

/-- The token of an operator between its operands. -/
def InfixOperator.sign : InfixOperator → Token
  | .plus => ⟨.plus, "+"⟩
  | .minus => ⟨.minus, "-"⟩
  | .times => ⟨.asterisk, "*"⟩
  | .divide => ⟨.slash, "/"⟩
  | .less => ⟨.less, "<"⟩
  | .greater => ⟨.greater, ">"⟩
  | .equal => ⟨.equal, "=="⟩
  | .notEqual => ⟨.notEqual, "!="⟩

theorem InfixOperator.joins (operator : InfixOperator) :
    (operator.sign.tag, operator) ∈ (operatorLayer operator).operators := by
  cases operator <;> decide

theorem InfixOperator.laidOut (operator : InfixOperator) (rest : List UInt8) :
    LaidOut operator.text [operator.sign] rest := by
  cases operator with
  | plus => exact laidOut_mark (by decide : ('+', .plus) ∈ Token.signs) (by decide) rest
  | minus => exact laidOut_mark (by decide : ('-', .minus) ∈ Token.signs) (by decide) rest
  | times => exact laidOut_mark (by decide : ('*', .asterisk) ∈ Token.signs) (by decide) rest
  | divide => exact laidOut_mark (by decide : ('/', .slash) ∈ Token.signs) (by decide) rest
  | less => exact laidOut_mark (by decide : ('<', .less) ∈ Token.signs) (by decide) rest
  | greater => exact laidOut_mark (by decide : ('>', .greater) ∈ Token.signs) (by decide) rest
  | equal => exact laidOut_equal rest
  | notEqual => exact laidOut_notEqual rest

/-- The token of an operator before its operand. -/
def PrefixOperator.sign : PrefixOperator → Token
  | .bang => ⟨.bang, "!"⟩
  | .minus => ⟨.minus, "-"⟩

theorem PrefixOperator.stands (operator : PrefixOperator) :
    (operator.sign.tag, operator) ∈ Grammar.signs := by
  cases operator <;> decide

theorem PrefixOperator.laidOut (operator : PrefixOperator) {rest : List UInt8}
    (single : rest.head? ≠ some equalsSign) : LaidOut operator.text [operator.sign] rest := by
  cases operator with
  | bang => exact laidOut_sign (by decide : ('!', .bang) ∈ Token.signs) fun _ => single
  | minus => exact laidOut_mark (by decide : ('-', .minus) ∈ Token.signs) (by decide) rest

/-! ### Expressions -/

/-- The text is laid out as the tokens before any edge, and they derive the tree from the tightest
layer. -/
structure Readable (tree : Expression) (tokens : List Token) : Prop where
  laid : ∀ rest, Edge rest → LaidOut tree.text tokens rest
  derives : ∀ after, Derives (.layer .call tree) (tokens ++ after) after

/-- As `Readable`, for expressions with commas between them. -/
structure ReadableList (trees : List Expression) (tokens : List Token) : Prop where
  laid : ∀ rest, Edge rest → LaidOut (separated (expressionTexts trees)) tokens rest
  derives : ∀ after, Derives (.list trees) (tokens ++ after) after

namespace Readable

variable {tree : Expression} {tokens : List Token}

theorem derives_layer (readable : Readable tree tokens) (layer : Layer) (after : List Token) :
    Derives (.layer layer tree) (tokens ++ after) after :=
  (readable.derives after).loosen (by cases layer <;> decide)

/-- No expression starts with an equals sign. -/
theorem starts (readable : Readable tree tokens) (rest : List UInt8) :
    (bytesOf tree.text ++ rest).head? ≠ some equalsSign := by
  intro begins
  have layout := readable.laid [] edge_nil [] (.ended (List.forall_mem_nil _))
  have opens := (readable.derives []).opens rfl
  rw [List.append_nil, List.append_nil] at layout
  rw [List.append_nil, ← layout.scanned] at opens
  cases bytes : bytesOf tree.text with
  | nil =>
    rw [bytes, scanBytes_of_blank (List.forall_mem_nil _)] at opens
    exact absurd opens (by decide)
  | cons head tail =>
    rw [bytes, List.cons_append, List.head?_cons, Option.some_inj] at begins
    subst begins
    have solid : (equalsSign :: tail).dropWhile isBlank = equalsSign :: tail :=
      List.dropWhile_cons_of_neg (by decide)
    rw [bytes, scanBytes_of_solid solid] at opens
    change (lexeme equalsSign tail).1.tag ∈ operandTags at opens
    by_cases doubled : tail.head? = some equalsSign
    · have tagged : (lexeme equalsSign tail).1.tag = .equal := by
        unfold lexeme
        rw [if_neg (by decide), if_neg (by decide), if_pos ⟨rfl, doubled⟩]
      rw [tagged] at opens
      exact absurd opens (by decide)
    · have tagged : (lexeme equalsSign tail).1.tag = .assign := by
        rw [lexeme_of_single (by decide) (by decide) fun _ => doubled]
        rfl
      rw [tagged] at opens
      exact absurd opens (by decide)

/-- What stands in parentheses can stand anywhere. -/
theorem grouped {inside after : List Token} {layer : Layer}
    (inner : Derives (.layer layer tree) (inside ++ rightParenthesis :: after)
      (rightParenthesis :: after)) :
    Derives (.layer .call tree) ([leftParenthesis] ++ inside ++ [rightParenthesis] ++ after)
      after := by
  have whole : Derives (.expression tree) _ _ := inner.loosen (by cases layer <;> decide)
  have opens : leftParenthesis.tag = .leftParen := rfl
  simpa using Derives.primary (.grouped opens whole rfl)

theorem prefixed (readable : Readable tree tokens) (operator : PrefixOperator) :
    Readable (.prefixed operator tree)
      ([leftParenthesis] ++ [operator.sign] ++ tokens ++ [rightParenthesis]) where
  laid rest _ := by
    rw [Expression.text]
    refine LaidOut.append ?_ (laidOut_rightParen rest)
    refine LaidOut.append ?_ (readable.laid _ (edge_rightParen rest))
    exact (laidOut_leftParen _).append (operator.laidOut (readable.starts _))
  derives after := by
    have operand := readable.derives_layer .sign (rightParenthesis :: after)
    have inner : Derives (.layer .sign (.prefixed operator tree))
        (operator.sign :: tokens ++ rightParenthesis :: after) (rightParenthesis :: after) :=
      .prefixed operator.stands operand
    simpa using grouped inner

theorem infixed (readable : Readable tree tokens) (operator : InfixOperator) {right : Expression}
    {others : List Token} (readableRight : Readable right others) :
    Readable (.infixed tree operator right)
      ([leftParenthesis] ++ tokens ++ [] ++ [operator.sign] ++ [] ++ others ++
        [rightParenthesis]) where
  laid rest _ := by
    have blank : ∀ more, Edge (bytesOf " " ++ more) := edge_append (by decide) (by decide)
    rw [Expression.text]
    refine LaidOut.append ?_ (laidOut_rightParen rest)
    refine LaidOut.append ?_ (readableRight.laid _ (edge_rightParen rest))
    refine LaidOut.append ?_ (laidOut_space _)
    refine LaidOut.append ?_ (operator.laidOut _)
    refine LaidOut.append ?_ (laidOut_space _)
    exact (laidOut_leftParen _).append (readable.laid _ (blank _))
  derives after := by
    have left := readable.derives_layer (operatorLayer operator)
      (operator.sign :: (others ++ rightParenthesis :: after))
    have right := readableRight.derives_layer (floorLayer operator.precedence)
      (rightParenthesis :: after)
    have inner := Derives.infixed left operator.joins (tighter_operatorLayer operator) right
    rw [← List.cons_append, ← List.append_assoc] at inner
    simpa using grouped inner

theorem call (readable : Readable tree tokens) {given : List Expression} {listed : List Token}
    (readableGiven : given = [] ∧ listed = [] ∨ ReadableList given listed) :
    Readable (.call tree given) (tokens ++ [leftParenthesis] ++ listed ++ [rightParenthesis]) where
  laid rest _ := by
    have opens : ∀ more, Edge (bytesOf "(" ++ more) := edge_append (by decide) (by decide)
    rw [Expression.text]
    refine LaidOut.append ?_ (laidOut_rightParen rest)
    refine LaidOut.append ?_ ?_
    · exact (readable.laid _ (opens _)).append (laidOut_leftParen _)
    · obtain ⟨rfl, rfl⟩ | readableGiven := readableGiven
      · exact .empty _
      · exact readableGiven.laid _ (edge_rightParen rest)
  derives after := by
    have opens : leftParenthesis.tag = .leftParen := rfl
    have arguments : Derives (.arguments given)
        (leftParenthesis :: (listed ++ rightParenthesis :: after)) after := by
      obtain ⟨rfl, rfl⟩ | readableGiven := readableGiven
      · exact .noArguments opens rfl
      · exact .arguments opens (readableGiven.derives _) rfl
    simpa using Derives.call (readable.derives _) arguments

end Readable

namespace ReadableList

theorem single {tree : Expression} {tokens : List Token} (readable : Readable tree tokens) :
    ReadableList [tree] tokens where
  laid := readable.laid
  derives after := .item (readable.derives_layer .equality after)

theorem cons {tree : Expression} {tokens : List Token} (readable : Readable tree tokens)
    {trees : List Expression} {others : List Token} (readableOthers : ReadableList trees others) :
    ReadableList (tree :: trees) (tokens ++ [⟨.comma, ","⟩] ++ others) where
  laid rest edge := by
    have comma : ∀ more, Edge (bytesOf ", " ++ more) := edge_append (by decide) (by decide)
    cases trees with
    | nil => cases readableOthers.derives []
    | cons next more =>
      rw [expressionTexts, expressionTexts, separated]
      refine LaidOut.append ?_ (readableOthers.laid rest edge)
      exact (readable.laid _ (comma _)).append (laidOut_comma _)
  derives after := by
    have first := readable.derives_layer .equality (⟨.comma, ","⟩ :: (others ++ after))
    simpa using Derives.items first rfl (readableOthers.derives after)

theorem of_each {trees : List Expression}
    (each : ∀ tree ∈ trees, ∃ tokens, Readable tree tokens) :
    ∃ tokens, trees = [] ∧ tokens = [] ∨ ReadableList trees tokens := by
  induction trees with
  | nil => exact ⟨[], .inl ⟨rfl, rfl⟩⟩
  | cons tree others inductionHypothesis =>
    obtain ⟨⟨tokens, here⟩, there⟩ := List.forall_mem_cons.mp each
    obtain ⟨more, ⟨rfl, rfl⟩ | listed⟩ := inductionHypothesis there
    · exact ⟨tokens, .inr (single here)⟩
    · exact ⟨_, .inr (cons here listed)⟩

end ReadableList

theorem readable_boolean (value : Bool) : ∃ tokens, Readable (.boolean value) tokens := by
  cases value with
  | true => exact ⟨[⟨.truth, "true"⟩], fun _ edge => laidOut_keyword (by decide) edge,
      fun _ => .primary (.truth rfl)⟩
  | false => exact ⟨[⟨.falsity, "false"⟩], fun _ edge => laidOut_keyword (by decide) edge,
      fun _ => .primary (.falsity rfl)⟩

theorem Expression.Plain.readable {tree : Expression} (plain : tree.Plain) :
    ∃ tokens, Readable tree tokens := by
  induction plain with
  | @identifier name named =>
    have whole : (⟨.identifier, name⟩ : Token).tag = .identifier := rfl
    exact ⟨[⟨.identifier, name⟩], fun _ edge => named.laidOut edge,
      fun _ => .primary (.identifier whole)⟩
  | @integer value natural =>
    have whole : (⟨.integer, integerText value⟩ : Token).tag = .integer := rfl
    exact ⟨[⟨.integer, integerText value⟩], fun _ edge => laidOut_integerText natural edge,
      fun _ => .primary (.integer whole (read?_integerText natural))⟩
  | boolean => exact readable_boolean _
  | prefixed _ inductionHypothesis =>
    obtain ⟨_, readable⟩ := inductionHypothesis
    exact ⟨_, readable.prefixed _⟩
  | infixed _ _ first second =>
    obtain ⟨_, left⟩ := first
    obtain ⟨_, right⟩ := second
    exact ⟨_, left.infixed _ right⟩
  | call _ _ head arguments =>
    obtain ⟨_, callee⟩ := head
    obtain ⟨_, given⟩ := ReadableList.of_each arguments
    exact ⟨_, callee.call given⟩

/-! ### Statements -/

/-- As `Readable`, for a statement that ends with a semicolon. -/
structure ReadableStatement (tree : Statement) (tokens : List Token) : Prop where
  laid : ∀ rest, LaidOut tree.text tokens rest
  derives : ∀ after, Derives (.statement tree) (tokens ++ after) after

namespace ReadableStatement

variable {value : Expression} {tokens : List Token}

theorem laidOut_led {word : String} {tag : Tag} (reserved : (word, tag) ∈ keywords)
    (rest : List UInt8) : LaidOut (word ++ " ") [⟨tag, word⟩] rest :=
  (laidOut_keyword reserved (edge_append (by decide) (by decide) rest)).append (laidOut_space rest)

theorem binding {name : String} (named : IsName name) (readable : Readable value tokens) :
    ReadableStatement (.binding name value) ([⟨.binding, "let"⟩] ++ [⟨.identifier, name⟩] ++
      [⟨.assign, "="⟩] ++ tokens ++ [⟨.semicolon, ";"⟩]) where
  laid rest := by
    have blank : ∀ more, Edge (bytesOf " = " ++ more) := edge_append (by decide) (by decide)
    rw [Statement.text]
    refine LaidOut.append ?_ (laidOut_semicolon rest)
    refine LaidOut.append ?_ (readable.laid _ (edge_semicolon rest))
    refine LaidOut.append ?_ (laidOut_assign _)
    have word := laidOut_led (by decide : ("let", .binding) ∈ keywords)
    exact (word _).append (named.laidOut (blank _))
  derives after := by
    have inner := readable.derives_layer .equality (⟨.semicolon, ";"⟩ :: after)
    have named : (⟨.identifier, name⟩ : Token).tag = .identifier := rfl
    have word : (⟨.binding, "let"⟩ : Token).tag = .binding := rfl
    have sign : (⟨.assign, "="⟩ : Token).tag = .assign := rfl
    simpa using Derives.binding word named sign inner (.semicolon rfl)

theorem bareReturn : ReadableStatement (.returning none)
    ([⟨.returning, "return"⟩] ++ [⟨.semicolon, ";"⟩]) where
  laid rest := by
    rw [Statement.text]
    have reserved : ("return", .returning) ∈ keywords := by decide
    exact (laidOut_keyword reserved (edge_semicolon rest)).append (laidOut_semicolon rest)
  derives after := .bareReturn rfl rfl

theorem returning (readable : Readable value tokens) : ReadableStatement (.returning (some value))
    ([⟨.returning, "return"⟩] ++ tokens ++ [⟨.semicolon, ";"⟩]) where
  laid rest := by
    rw [Statement.text]
    refine LaidOut.append ?_ (laidOut_semicolon rest)
    exact (laidOut_led (by decide : ("return", .returning) ∈ keywords) _).append
      (readable.laid _ (edge_semicolon rest))
  derives after := by
    have inner := readable.derives_layer .equality (⟨.semicolon, ";"⟩ :: after)
    have word : (⟨.returning, "return"⟩ : Token).tag = .returning := rfl
    simpa using Derives.returning word inner (.semicolon rfl)

end ReadableStatement

/-- The text of some statements is laid out as tokens that derive them all. -/
def ReadableBlock (trees : List Statement) : Prop :=
  ∃ tokens, LaidOut (blockText trees) tokens [] ∧ Derives (.statements trees) tokens []

theorem ReadableStatement.cons {tree : Statement} {tokens : List Token}
    (readable : ReadableStatement tree tokens) {trees : List Statement}
    (others : ReadableBlock trees) : ReadableBlock (tree :: trees) := by
  obtain ⟨more, laid, derives⟩ := others
  refine ⟨tokens ++ more, ?_, .statements (readable.derives more) derives⟩
  rw [blockText]
  exact (readable.laid _).append laid

/-- An expression at the very end needs no semicolon. -/
theorem readableBlock_last {value : Expression} {tokens : List Token}
    (readable : Readable value tokens) : ReadableBlock [.expression value] := by
  refine ⟨tokens, ?_, ?_⟩
  · have laid := (readable.laid (bytesOf "" ++ []) (by decide)).append (.empty [])
    rwa [List.append_nil] at laid
  · have inner := readable.derives_layer .equality []
    rw [List.append_nil] at inner
    exact .statements (.expression inner (.complete (by decide))) .empty

theorem PlainStatements.readable {trees : List Statement} (plain : PlainStatements trees) :
    ReadableBlock trees := by
  induction plain with
  | none => exact ⟨[], .empty [], .empty⟩
  | last plain =>
    obtain ⟨_, readable⟩ := plain.readable
    exact readableBlock_last readable
  | binding named plain _ inductionHypothesis =>
    obtain ⟨_, readable⟩ := plain.readable
    exact (ReadableStatement.binding named readable).cons inductionHypothesis
  | bareReturn _ inductionHypothesis => exact ReadableStatement.bareReturn.cons inductionHypothesis
  | returning plain _ inductionHypothesis =>
    obtain ⟨_, readable⟩ := plain.readable
    exact (ReadableStatement.returning readable).cons inductionHypothesis

/-! ### Programs -/

/-- The canonical text of a plain program is parsed as the program, without diagnostics. -/
theorem parsing_inverts_printing (program : Program) (plain : PlainStatements program.statements) :
    Program.parse program.text = ⟨program, []⟩ := by
  obtain ⟨tokens, laid, derives⟩ := plain.readable
  have layout := laid [] (.ended (List.forall_mem_nil _))
  rw [List.append_nil, List.append_nil] at layout
  have scanned : scan program.text = tokens := layout.scanned
  unfold Program.parse
  rw [scanned, ofTokens_eq_iff]
  exact ⟨[], (read_of_derives derives).2 rfl⟩

/-- Signs before a call of a difference, a return between two statements, the largest integer. -/
theorem parsing_inverts_printing_nested :
    let callee := Expression.infixed (.identifier "ok?") .minus (.integer 9223372036854775807)
    let value := Expression.prefixed .bang (.prefixed .minus (.call callee [.boolean true]))
    let statements := [.binding "a_b" value, .returning none, .expression (.call value [])]
    PlainStatements statements ∧
      Program.parse (Program.text ⟨statements⟩) = ⟨⟨statements⟩, []⟩ := by
  intro callee value statements
  have plainCallee : callee.Plain := .infixed (.identifier (by decide)) (.integer (by decide))
  have plainValue : value.Plain :=
    .prefixed (.prefixed (.call plainCallee (List.forall_mem_singleton.mpr .boolean)))
  have plain : PlainStatements statements :=
    .binding (by decide) plainValue (.bareReturn (.last (.call plainValue (List.forall_mem_nil _))))
  exact ⟨plain, parsing_inverts_printing ⟨statements⟩ plain⟩

end Monkey
