/-
This file is about two texts that stand in one source with nothing between them.
The tokens before the last one of the first text are scanned as they are there.
The last one may go on in the second text: a word with a letter, a number with a
digit, and a single equals sign or exclamation mark with an equals sign. Then a
longer token stands at the seam, and the tokens are not those of the two texts.
Everywhere else they are, and with a blank at the seam they always are.
-/

import Monkey.Proofs.Scanning.Separation

namespace Monkey.Token

/-! ### One token and more bytes -/

/-- A run of a class of bytes that ends among some bytes ends there if more bytes follow. -/
theorem span_append_of_left {holds : UInt8 → Bool} {bytes : List UInt8}
    (left : bytes.dropWhile holds ≠ []) (more : List UInt8) :
    (bytes ++ more).takeWhile holds = bytes.takeWhile holds ∧
      (bytes ++ more).dropWhile holds = bytes.dropWhile holds ++ more := by
  have taken : ∀ byte ∈ bytes.takeWhile holds, holds byte :=
    fun _ member => List.mem_takeWhile_imp member
  have stops : ∀ byte ∈ (bytes.dropWhile holds ++ more).head?, holds byte = false := by
    rw [List.head?_append_of_ne_nil _ left]
    intro byte first
    have stopped := List.head?_dropWhile_not holds bytes
    rw [first] at stopped
    exact stopped
  have ended := span_append taken stops
  rwa [← List.append_assoc, List.takeWhile_append_dropWhile] at ended

/-- A token that leaves some of the bytes is the same if more bytes follow. -/
theorem lexeme_append_of_left {head : UInt8} {rest : List UInt8}
    (left : (lexeme head rest).2 ≠ []) (more : List UInt8) :
    lexeme head (rest ++ more) = ((lexeme head rest).1, (lexeme head rest).2 ++ more) := by
  by_cases letter : isLetter head
  · unfold lexeme at left ⊢
    rw [if_pos letter] at left
    obtain ⟨taken, after⟩ := span_append_of_left left more
    simp only [if_pos letter, taken, after]
  by_cases digit : isDigit head
  · unfold lexeme at left ⊢
    rw [if_neg letter, if_pos digit] at left
    obtain ⟨taken, after⟩ := span_append_of_left left more
    simp only [if_neg letter, if_pos digit, taken, after]
  rw [Bool.not_eq_true] at letter digit
  cases rest with
  | nil =>
    rw [lexeme_of_single letter digit fun _ => by simp] at left
    exact absurd rfl left
  | cons second others =>
    -- The byte after a sign decides whether it is a double one.
    by_cases doubled : (head = equalsSign ∨ head = bangSign) ∧ second = equalsSign
    · obtain ⟨rfl | rfl, rfl⟩ := doubled <;> rfl
    · have single (bytes : List UInt8) : head = equalsSign ∨ head = bangSign →
          (second :: bytes).head? ≠ some equalsSign :=
        fun sign same => doubled ⟨sign, Option.some.inj same⟩
      rw [List.cons_append, lexeme_of_single letter digit (single _),
        lexeme_of_single letter digit (single _)]
      rfl

/-- What a token is that takes all of some bytes. -/
inductive Takes : List UInt8 → Token → Prop
  | word {run : List UInt8} (letters : ∀ byte ∈ run, isLetter byte) :
    Takes run ⟨wordTag (spelling run), spelling run⟩
  | number {run : List UInt8} (digits : ∀ byte ∈ run, isDigit byte) :
    Takes run ⟨.integer, spelling run⟩
  | equal : Takes [equalsSign, equalsSign] ⟨.equal, "=="⟩
  | notEqual : Takes [bangSign, equalsSign] ⟨.notEqual, "!="⟩
  | single {byte : UInt8} (letter : isLetter byte = false) (digit : isDigit byte = false) :
    Takes [byte] ⟨signTag (character byte), spelling [byte]⟩

theorem takes_of_whole {head : UInt8} {tail : List UInt8} {token : Token}
    (whole : lexeme head tail = (token, [])) : Takes (head :: tail) token := by
  by_cases letter : isLetter head
  · rw [lexeme, if_pos letter, Prod.mk.injEq] at whole
    obtain ⟨rfl, nothing⟩ := whole
    have others := List.dropWhile_eq_nil_iff.mp nothing
    rw [List.takeWhile_eq_self_iff.mpr others]
    exact .word (List.forall_mem_cons.mpr ⟨letter, others⟩)
  by_cases digit : isDigit head
  · rw [lexeme, if_neg letter, if_pos digit, Prod.mk.injEq] at whole
    obtain ⟨rfl, nothing⟩ := whole
    have others := List.dropWhile_eq_nil_iff.mp nothing
    rw [List.takeWhile_eq_self_iff.mpr others]
    exact .number (List.forall_mem_cons.mpr ⟨digit, others⟩)
  rw [Bool.not_eq_true] at letter digit
  by_cases doubled : (head = equalsSign ∨ head = bangSign) ∧ tail.head? = some equalsSign
  · obtain ⟨sign, second⟩ := doubled
    obtain ⟨others, rfl⟩ := List.head?_eq_some_iff.mp second
    obtain rfl | rfl := sign <;> cases whole
    · exact .equal
    · exact .notEqual
  · rw [lexeme_of_single letter digit fun sign second => doubled ⟨sign, second⟩] at whole
    cases whole
    exact .single letter digit

/-! ### The seam -/

/-- The byte goes on with the token that the last byte ends. -/
inductive GoesOn (token : Token) (last : UInt8) : UInt8 → Prop
  | word {next : UInt8} (letters : isLetter last ∧ isLetter next) : GoesOn token last next
  | number {next : UInt8} (digits : isDigit last ∧ isDigit next) : GoesOn token last next
  | sign (single : token.tag = .assign ∨ token.tag = .bang) : GoesOn token last equalsSign

/-- A token that takes all of some bytes takes the same of more bytes that do not go on with it. -/
theorem lexeme_append_of_stops {head last : UInt8} {tail more : List UInt8} {token : Token}
    (whole : lexeme head tail = (token, [])) (ends : (head :: tail).getLast? = some last)
    (stops : ∀ next ∈ more.head?, ¬ GoesOn token last next) :
    lexeme head (tail ++ more) = (token, more) := by
  have member := List.mem_of_getLast? ends
  cases takes_of_whole whole with
  | word letters =>
    refine lexeme_of_letters letters fun next first => Bool.eq_false_iff.mpr fun letter => ?_
    exact stops next first (.word ⟨letters last member, letter⟩)
  | number digits =>
    refine lexeme_of_digits digits fun next first => Bool.eq_false_iff.mpr fun digit => ?_
    exact stops next first (.number ⟨digits last member, digit⟩)
  | equal | notEqual => rfl
  | single letter digit =>
    refine lexeme_of_single letter digit fun sign first => stops _ first (.sign ?_)
    obtain rfl | rfl := sign
    · exact .inl rfl
    · exact .inr rfl

theorem sign_of_signTag {byte : UInt8}
    (single : signTag (character byte) = .assign ∨ signTag (character byte) = .bang) :
    byte = equalsSign ∨ byte = bangSign := by
  have marks : ∀ code < 0x80, signTag (character (UInt8.ofNat code)) = .assign ∨
      signTag (character (UInt8.ofNat code)) = .bang →
        UInt8.ofNat code = equalsSign ∨ UInt8.ofNat code = bangSign := by decide
  by_cases ascii : byte < 0x80
  · have known := marks byte.toNat (UInt8.lt_iff_toNat_lt.mp ascii)
    rw [UInt8.ofNat_toNat] at known
    exact known single
  · have shown : character byte = '\uFFFD' := if_neg ascii
    rw [shown] at single
    exact absurd single (by decide)

/-- What is tagged as a word is no sign. -/
theorem wordTag_ne_sign (word : String) : ¬ (wordTag word = .assign ∨ wordTag word = .bang) := by
  have reserved : ∀ entry ∈ keywords, ¬ (entry.2 = .assign ∨ entry.2 = .bang) := by decide
  obtain known | ⟨_, tagged⟩ := getD_lookup_cases keywords .identifier word
  · exact reserved _ known
  · unfold wordTag
    rw [tagged]
    decide

/-- A longer run of bytes of a class is spelled in another way. -/
theorem spelling_ne_of_longer {holds : UInt8 → Bool} {head next : UInt8}
    {tail others : List UInt8} (all : ∀ byte ∈ head :: tail, holds byte) (goesOn : holds next) :
    spelling (head :: (tail ++ next :: others).takeWhile holds) ≠ spelling (head :: tail) := by
  intro same
  have lengths := congrArg String.length same
  rw [List.takeWhile_append_of_pos (List.forall_mem_cons.mp all).2,
    List.takeWhile_cons_of_pos goesOn] at lengths
  simp [spelling] at lengths

/-- Before a byte that goes on with it, another token stands in place of a token. -/
theorem lexeme_ne_of_goesOn {head last next : UInt8} {tail : List UInt8} {token : Token}
    (whole : lexeme head tail = (token, [])) (ends : (head :: tail).getLast? = some last)
    (goesOn : GoesOn token last next) (more : List UInt8) :
    (lexeme head (tail ++ next :: more)).1 ≠ token := by
  have member := List.mem_of_getLast? ends
  intro same
  cases takes_of_whole whole with
  | word letters =>
    cases goesOn with
    | word both =>
      rw [lexeme, if_pos (letters head List.mem_cons_self)] at same
      exact spelling_ne_of_longer letters both.2 (congrArg Token.text same)
    | number both =>
      have other := not_isLetter_of_isDigit both.1
      exact Bool.false_ne_true (other.symm.trans (letters last member))
    | sign single => exact wordTag_ne_sign _ single
  | number digits =>
    have word := not_isLetter_of_isDigit (digits last member)
    cases goesOn with
    | word both => exact Bool.false_ne_true (word.symm.trans both.1)
    | number both =>
      have digit := digits head List.mem_cons_self
      have letter := Bool.eq_false_iff.mp (not_isLetter_of_isDigit digit)
      rw [lexeme, if_neg letter, if_pos digit] at same
      exact spelling_ne_of_longer digits both.2 (congrArg Token.text same)
    | sign single => obtain single | single := single <;> cases single
  | equal | notEqual =>
    cases ends
    cases goesOn with
    | word both => cases both.1
    | number both => cases both.1
    | sign single => obtain single | single := single <;> cases single
  | single letter digit =>
    cases ends
    cases goesOn with
    | word both => exact Bool.false_ne_true (letter.symm.trans both.1)
    | number both => exact Bool.false_ne_true (digit.symm.trans both.1)
    | sign single =>
      obtain rfl | rfl := sign_of_signTag single
      · cases congrArg Token.tag same
      · cases congrArg Token.tag same

/-! ### Two texts -/

theorem scanBytes_blanks_append {blanks : List UInt8} (blank : ∀ byte ∈ blanks, isBlank byte)
    (more : List UInt8) : scanBytes (blanks ++ more) = scanBytes more :=
  ((layout_scanBytes more).of_blanks blank).scanned

/-- A token that something follows is scanned whatever follows after that. -/
theorem Longest.scanBytes_append {span rest : List UInt8} {token : Token}
    (longest : Longest span token rest) (left : rest ≠ []) (more : List UInt8) :
    scanBytes (span ++ rest ++ more) = token :: scanBytes (rest ++ more) := by
  obtain ⟨head, tail, rfl, solid, scanned⟩ := longest.scanned
  have taken : lexeme head (tail ++ rest ++ more) = (token, rest ++ more) := by
    rw [lexeme_append_of_left (by rwa [scanned]), scanned]
  have starts : (head :: (tail ++ rest ++ more)).dropWhile isBlank =
      head :: (tail ++ rest ++ more) :=
    List.dropWhile_cons_of_neg (Bool.eq_false_iff.mp solid)
  rw [List.cons_append, List.cons_append, scanBytes_of_solid starts, taken]

/-- The last token stands at the end of the bytes, and what stands before it is scanned as it is
whatever follows. -/
structure Finishes (bytes : List UInt8) (before : List Token) (token : Token) (head : UInt8)
    (tail : List UInt8) : Prop where
  suffix : head :: tail <:+ bytes
  solid : ∀ byte ∈ head :: tail, isBlank byte = false
  whole : lexeme head tail = (token, [])
  scans : ∀ more, scanBytes (bytes ++ more) = before ++ scanBytes (head :: tail ++ more)

/-- Some bytes end in a blank, and then it does not matter to them what follows, or in a token. -/
theorem Layout.ends {bytes : List UInt8} {tokens : List Token} (layout : Layout bytes tokens) :
    ((∀ last ∈ bytes.getLast?, isBlank last) ∧
        ∀ more, scanBytes (bytes ++ more) = tokens ++ scanBytes more) ∨
      ∃ before token head tail, tokens = before ++ [token] ∧
        Finishes bytes before token head tail := by
  induction layout with
  | ended blank =>
    exact .inl ⟨fun last ends => blank last (List.mem_of_getLast? ends),
      scanBytes_blanks_append blank⟩
  | @token blanks span rest token tokens blank longest others inductionHypothesis =>
    by_cases last : rest = []
    · subst last
      obtain rfl : tokens = [] := others.scanned.symm.trans (scanBytes_of_blank nofun)
      obtain ⟨head, tail, rfl, _, scanned⟩ := longest.scanned
      rw [List.append_nil] at scanned ⊢
      refine .inr ⟨[], token, head, tail, rfl, List.suffix_append _ _, longest.forms.solid, scanned,
        fun more => ?_⟩
      rw [List.append_assoc, scanBytes_blanks_append blank, List.nil_append]
    · have goesOn (more : List UInt8) :
          scanBytes (blanks ++ (span ++ rest) ++ more) = token :: scanBytes (rest ++ more) := by
        rw [List.append_assoc, scanBytes_blanks_append blank, longest.scanBytes_append last]
      have within : rest <:+ blanks ++ (span ++ rest) :=
        (List.suffix_append _ _).trans (List.suffix_append _ _)
      obtain ⟨ended, scans⟩ | ⟨before, final, head, tail, split, ending⟩ := inductionHypothesis
      · refine .inl ⟨?_, fun more => ?_⟩
        · rwa [← List.append_assoc, List.getLast?_append_of_ne_nil _ last]
        · rw [goesOn, scans, List.cons_append]
      · refine .inr ⟨token :: before, final, head, tail, ?_, ending.suffix.trans within,
          ending.solid, ending.whole, fun more => ?_⟩
        · rw [split, List.cons_append]
        · rw [goesOn, ending.scans]
          rfl

/-- The token is the last one of the source, and there is no blank after it. -/
def Closes (token : Token) (source : String) : Prop :=
  (scan source).getLast? = some token ∧ ∀ last ∈ (bytesOf source).getLast?, isBlank last = false

/-- Next to each other, the two texts have a token that takes bytes of both. -/
inductive Merges (first second : String) : Prop
  | words {last next : UInt8} (ends : (bytesOf first).getLast? = some last)
      (starts : (bytesOf second).head? = some next) (letters : isLetter last ∧ isLetter next)
  | numbers {last next : UInt8} (ends : (bytesOf first).getLast? = some last)
      (starts : (bytesOf second).head? = some next) (digits : isDigit last ∧ isDigit next)
  | signs {token : Token} (closes : Closes token first)
      (single : token.tag = .assign ∨ token.tag = .bang)
      (starts : (bytesOf second).head? = some equalsSign)

/-- Bytes that end in a token are scanned apart from what follows unless that goes on with the
token. -/
theorem Finishes.scanBytes_append_iff {bytes tail : List UInt8} {before : List Token} {token : Token}
    {head last : UInt8} (ending : Finishes bytes before token head tail)
    (ends : (head :: tail).getLast? = some last) (more : List UInt8) :
    scanBytes (bytes ++ more) = before ++ [token] ++ scanBytes more ↔
      ∀ next ∈ more.head?, ¬ GoesOn token last next := by
  have starts : (head :: (tail ++ more)).dropWhile isBlank = head :: (tail ++ more) :=
    List.dropWhile_cons_of_neg (Bool.eq_false_iff.mp (ending.solid head List.mem_cons_self))
  rw [ending.scans, List.append_assoc, List.append_cancel_left_eq, List.cons_append,
    scanBytes_of_solid starts, List.singleton_append]
  constructor
  · intro same next first goesOn
    obtain ⟨after, rfl⟩ := List.head?_eq_some_iff.mp first
    exact lexeme_ne_of_goesOn ending.whole ends goesOn after (List.cons.inj same).1
  · intro stops
    rw [lexeme_append_of_stops ending.whole ends stops]

/-- No token takes bytes of both texts if the first ends in a blank. -/
theorem not_merges_of_blank {first second : String}
    (blank : ∀ last ∈ (bytesOf first).getLast?, isBlank last) : ¬ Merges first second := by
  rintro (⟨ends, _, letter, _⟩ | ⟨ends, _, digit, _⟩ | ⟨⟨final, solid⟩, _, _⟩)
  · exact Bool.false_ne_true ((not_isBlank_of_isLetter letter).symm.trans (blank _ ends))
  · exact Bool.false_ne_true ((not_isBlank_of_isDigit digit).symm.trans (blank _ ends))
  · cases ends : (bytesOf first).getLast? with
    | some last => exact Bool.false_ne_true ((solid last ends).symm.trans (blank last ends))
    | none =>
      rw [scan, List.getLast?_eq_none_iff.mp ends, scanBytes_of_blank (List.forall_mem_nil _)] at final
      cases final

/-- What the next byte does to the last token is what the second text does. -/
theorem merges_iff {first second : String} {before : List Token} {token : Token} {head last : UInt8}
    {tail : List UInt8} (tokens : scan first = before ++ [token])
    (ending : Finishes (bytesOf first) before token head tail)
    (ends : (head :: tail).getLast? = some last) :
    Merges first second ↔ ∃ next ∈ (bytesOf second).head?, GoesOn token last next := by
  have lastByte : (bytesOf first).getLast? = some last := by
    obtain ⟨others, same⟩ := ending.suffix
    rw [← same, List.getLast?_append_of_ne_nil _ (List.cons_ne_nil _ _), ends]
  have final : (scan first).getLast? = some token := by
    rw [tokens, List.getLast?_concat]
  constructor
  · rintro (⟨ends', starts, letters⟩ | ⟨ends', starts, digits⟩ | ⟨⟨final', _⟩, single, starts⟩)
    · cases lastByte.symm.trans ends'
      exact ⟨_, starts, .word letters⟩
    · cases lastByte.symm.trans ends'
      exact ⟨_, starts, .number digits⟩
    · cases final.symm.trans final'
      exact ⟨_, starts, .sign single⟩
  · rintro ⟨next, starts, letters | digits | single⟩
    · exact .words lastByte starts letters
    · exact .numbers lastByte starts digits
    · refine .signs ⟨final, fun byte same => ?_⟩ single starts
      cases lastByte.symm.trans same
      exact ending.solid last (List.mem_of_getLast? ends)

/-- The separators are blanks, each of one byte. -/
theorem exists_blank_of_mem {separator : Char} (listed : separator ∈ [' ', '\t', '\n', '\r']) :
    ∃ byte, isBlank byte ∧ String.singleton separator = spelling [byte] := by
  simp only [List.mem_cons, List.not_mem_nil, or_false] at listed
  obtain rfl | rfl | rfl | rfl := listed
  · exact ⟨0x20, by decide, by decide⟩
  · exact ⟨0x09, by decide, by decide⟩
  · exact ⟨0x0a, by decide, by decide⟩
  · exact ⟨0x0d, by decide, by decide⟩

/-- With a blank between them, two texts have the tokens of the first and then those of the second.
Without one they do exactly if no letter stands next to a letter at the seam, no digit next to a
digit, and no equals sign after a token that is a single equals sign or exclamation mark. -/
theorem scanning_appended (first second : String) :
    (∀ separator ∈ [' ', '\t', '\n', '\r'],
        scan (first ++ String.singleton separator ++ second) = scan first ++ scan second) ∧
      (scan (first ++ second) = scan first ++ scan second ↔ ¬ Merges first second) := by
  constructor
  · intro separator listed
    obtain ⟨byte, blank, same⟩ := exists_blank_of_mem listed
    rw [same]
    exact scan_separated blank first second
  have joined : scan (first ++ second) = scanBytes (bytesOf first ++ bytesOf second) := by
    rw [scan, bytesOf_append]
  obtain ⟨blank, scans⟩ | ⟨before, token, head, tail, tokens, ending⟩ :=
    (layout_scanBytes (bytesOf first)).ends
  · exact iff_of_true (joined.trans (scans _)) (not_merges_of_blank blank)
  · have tokens : scan first = before ++ [token] := tokens
    have ends := List.getLast?_eq_some_getLast (List.cons_ne_nil head tail)
    rw [joined, tokens, merges_iff tokens ending ends]
    simp only [not_exists, not_and]
    exact ending.scanBytes_append_iff ends _

end Monkey.Token
