/-
This file completes what is typed at the prompt. The word before the cursor is
completed to the keywords and the names bound in the session that begin with it.
On a command line the name of the command is completed, or the program after the
command that prints one. Places are counted in bytes from the start of the line.
-/

import Monkey.Command
import Monkey.Prompt.FileWord
import Monkey.Session

namespace Monkey

/-- What can stand in place of the text from `start` to the cursor. -/
structure Suggestions where
  start : Nat
  candidates : List String
deriving DecidableEq

namespace Suggestions

/-! ### The word before the cursor -/

/-- The characters that fit a number of bytes. -/
def charactersWithin : Nat → List Char → List Char
  | _, [] => []
  | bytes, character :: rest =>
    if character.utf8Size ≤ bytes then
      character :: charactersWithin (bytes - character.utf8Size) rest
    else
      []

/-- The part of a line before the cursor. -/
def before (line : String) (cursor : Nat) : List Char :=
  charactersWithin cursor line.toList

/-- Words are made of ASCII letters, the underscore and the question mark. -/
def isWordCharacter (character : Char) : Bool :=
  character.isAlpha || character == '_' || character == '?'

/-- The last characters of a text that are all accepted. -/
def lastRun (accept : Char → Bool) (text : List Char) : List Char :=
  (text.reverse.takeWhile accept).reverse

/-- The word that ends at the cursor. -/
def word (line : String) (cursor : Nat) : List Char :=
  lastRun isWordCharacter (before line cursor)

/-- Where the word that ends at the cursor starts. -/
def wordStart (line : String) (cursor : Nat) : Nat :=
  cursor - Prompt.byteCount (word line cursor)

/-! ### Candidates -/

/-- Nothing to suggest. -/
def nothing : Suggestions := ⟨0, []⟩

/-- The keywords and the bound names that begin with a word. An empty word begins none. -/
def candidatesFor (session : Session) (stem : String) : List String :=
  if stem.isEmpty then []
  else
    (Token.keywords.map Prod.fst).filter (Text.hasStem stem) ++ session.namesWithStem stem

/-- Completes the word before the cursor. -/
def forWord (session : Session) (line : String) (cursor : Nat) : Suggestions :=
  ⟨wordStart line cursor, candidatesFor session (String.ofList (word line cursor))⟩

/-- Finds where the file name before the cursor starts. No file is suggested. -/
def forFile (line : String) (cursor : Nat) : Suggestions :=
  ⟨Prompt.fileNameStart (before line cursor), []⟩

/-- Completes the name of a command after the colon. -/
def forCommand (stem : String) : Suggestions :=
  match Command.withStem? stem with
  | some command => ⟨1, [command.longName]⟩
  | none => nothing

/-- What the prompt suggests at the cursor of a line. -/
def suggest (session : Session) (line : String) (cursor : Nat) : Suggestions :=
  match before line cursor with
  | [] => nothing
  | ':' :: typed =>
    if typed.contains ' ' then
      match Command.named? (String.ofList (typed.takeWhile fun character => character != ' ')) with
      | some .load => forFile line cursor
      | some .ast => forWord session line cursor
      | _ => nothing
    else
      forCommand (String.ofList typed)
  | _ => forWord session line cursor

end Suggestions

end Monkey
