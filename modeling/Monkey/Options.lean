/-
This file reads the command line. Arguments are taken from left to right, and
the first that is refused, or that asks for help or the version, is the answer.
A short option may be followed by others in one argument; long options are
written out. After two dashes alone every argument is a file, and so is a single
dash. The names of files are checked when an option is taken after them, and at
the end.
-/

namespace Monkey

/-- What the interpreter is asked to do. -/
structure Options where
  /-- Evaluate the files, or the input when there are none, and start no prompt. -/
  noInteractive : Bool
  /-- Leave the history of the prompt alone. -/
  noHistory : Bool
  /-- What is evaluated first, in order. -/
  files : List String
deriving DecidableEq, Inhabited

/-- Why there are no options to go by. -/
inductive Refusal where
  | unknownArgument (argument : String)
  /-- An option is given a second time. -/
  | repeated (option : String)
  /-- An option that takes no value has one. -/
  | unwantedValue (option : String)
  /-- The name of a file is empty. -/
  | emptyFile
  | helpWanted
  | versionWanted
deriving DecidableEq

namespace Options

/-- What no arguments at all ask for. -/
def initial : Options := ⟨false, false, []⟩

/-- The options that there are. -/
inductive Choice where
  | noInteractive
  | noHistory
  | help
  | version
deriving DecidableEq

namespace Choice

/-- How the option is written out, after two dashes. -/
def longName : Choice → String
  | noInteractive => "no-interactive"
  | noHistory => "no-history"
  | help => "help"
  | version => "version"

/-- The letter for the option after a single dash. -/
def letter? : Choice → Option Char
  | noInteractive => some 'n'
  | noHistory => none
  | help => some 'h'
  | version => some 'V'

def all : List Choice := [noInteractive, noHistory, help, version]

end Choice

/-- Checks the names of the files so far: none of them may be empty. -/
def checked (options : Options) : Except Refusal Options :=
  if options.files.any String.isEmpty then .error .emptyFile else .ok options

/-- Takes one option, after a check of the files before it. -/
def choose (options : Options) (choice : Choice) : Except Refusal Options := do
  let options ← options.checked
  match choice with
  | .noInteractive =>
    if options.noInteractive then .error (.repeated "--no-interactive")
    else .ok { options with noInteractive := true }
  | .noHistory =>
    if options.noHistory then .error (.repeated "--no-history")
    else .ok { options with noHistory := true }
  | .help => .error .helpWanted
  | .version => .error .versionWanted

/-- Takes the options behind a single dash, by their letters. -/
def chooseLetters (argument : String) (options : Options) : List Char → Except Refusal Options
  | [] => .ok options
  | letter :: rest =>
    match Choice.all.find? fun choice => choice.letter? == some letter with
    | none => .error (.unknownArgument argument)
    | some choice =>
      match options.choose choice with
      | .ok next => chooseLetters argument next rest
      | .error refusal => .error refusal

/-- Takes the option behind two dashes. -/
def chooseLong (argument : String) (options : Options) (body : List Char) :
    Except Refusal Options :=
  let name := String.ofList (body.takeWhile fun character => character != '=')
  match Choice.all.find? fun choice => choice.longName == name with
  | none => .error (.unknownArgument argument)
  | some choice =>
    if body.contains '=' then .error (.unwantedValue argument) else options.choose choice

/-- Takes files alone. -/
def addFiles (options : Options) (files : List String) : Options :=
  { options with files := options.files ++ files }

/-- Takes arguments from left to right. -/
def parseFrom (options : Options) : List String → Except Refusal Options
  | [] => options.checked
  | argument :: rest =>
    if argument = "--" then
      (options.addFiles rest).checked
    else
      let taken :=
        match argument.toList with
        | '-' :: '-' :: body => options.chooseLong argument body
        | '-' :: letter :: letters => options.chooseLetters argument (letter :: letters)
        | _ => .ok (options.addFiles [argument])
      match taken with
      | .ok next => parseFrom next rest
      | .error refusal => .error refusal

/-- The options that some arguments ask for. -/
def parse (arguments : List String) : Except Refusal Options :=
  initial.parseFrom arguments

end Options

end Monkey
