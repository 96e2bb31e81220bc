/-
This file is the frame in which programs are read. A reading takes tokens from
the front of a list. It either accepts, with a value and the tokens it left, or
rejects, with the one diagnostic that made it give up and the tokens at which
the next statement is looked for. Both carry the diagnostics noted on the way,
which come from statements of inner blocks that were given up on their own.

Readings call one another under a bound on the depth of the calls; a reading
that meets the bound gives no outcome at all, which is neither of the two.
-/

import Monkey.Diagnostic

namespace Monkey

/-- What reading a piece of a program comes to. -/
inductive Outcome (Result : Type) where
  | accepted (result : Result) (noted : List Diagnostic) (rest : List Token)
  | rejected (reported : Diagnostic) (noted : List Diagnostic) (resume : List Token)

/-- The same outcome after some diagnostics noted earlier. -/
def Outcome.after {Result : Type} (earlier : List Diagnostic) : Outcome Result → Outcome Result
  | accepted result noted rest => accepted result (earlier ++ noted) rest
  | rejected reported noted resume => rejected reported (earlier ++ noted) resume

/-- A way to read a piece of a program from the front of some tokens. -/
def Reading (Result : Type) : Type :=
  List Token → Option (Outcome Result)

namespace Reading

variable {Result Following : Type}

/-- Accepts without looking at a token. -/
def accept (result : Result) : Reading Result :=
  fun tokens => some (.accepted result [] tokens)

/-- Reads a second piece after a first one that was accepted. -/
def andThen (first : Reading Result) (second : Result → Reading Following) : Reading Following :=
  fun tokens =>
    match first tokens with
    | none => none
    | some (.rejected reported noted resume) => some (.rejected reported noted resume)
    | some (.accepted result noted rest) => (second result rest).map (Outcome.after noted)

instance : Monad Reading where
  pure := accept
  bind := andThen

/-- Gives no outcome: the bound on the depth is met. -/
def exhausted : Reading Result :=
  fun _ => none

/-- Gives up, and lets the next statement be looked for at the token that is next now. -/
def reject (reported : Diagnostic) : Reading Result :=
  fun tokens => some (.rejected reported [] tokens)

/-- The tag of the next token, which stays where it is. -/
def upcoming : Reading Tag :=
  fun tokens => some (.accepted (Token.first tokens).tag [] tokens)

/-- Takes the next token. The end of the input stays where it is. -/
def advance : Reading Token :=
  fun tokens => some (.accepted (Token.first tokens) [] tokens.tail)

/-- Takes the next token if it has the expected tag. Otherwise the token is left for the next
statement to start with. -/
def expect (expected : Tag) : Reading Token := do
  let tag ← upcoming
  if tag = expected then advance else reject (.unexpectedToken expected tag)

/-- Takes the next token if it has the given tag, and nothing otherwise. -/
def skip (tag : Tag) : Reading Unit := do
  if (← upcoming) = tag then
    let _ ← advance

/-- Reads a piece that may be given up: what made it give up is noted, and reading goes on. -/
def attempt (piece : Reading Result) : Reading (Option Result) :=
  fun tokens =>
    match piece tokens with
    | none => none
    | some (.accepted result noted rest) => some (.accepted (some result) noted rest)
    | some (.rejected reported noted resume) =>
      some (.accepted none (noted ++ [reported]) resume)

end Reading

end Monkey
