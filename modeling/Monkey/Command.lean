/-
This file holds the commands of the prompt. A line whose first character after
white space is a colon is a command line: a name follows, and after white space
the argument. Every command has a short and a long name.

A program never starts with a colon, so no program is taken for a command.
-/

import Monkey.Text.Blank
import Monkey.Text.Stem

namespace Monkey

inductive Command where
  | help
  | load
  | ast
  | reset
  | quit
deriving DecidableEq, Inhabited

namespace Command

/-- All commands, in the order in which they are explained and looked up. -/
def all : List Command := [help, load, ast, reset, quit]

def shortName : Command → String
  | help => "h"
  | load => "l"
  | ast => "a"
  | reset => "r"
  | quit => "q"

def longName : Command → String
  | help => "help"
  | load => "load"
  | ast => "ast"
  | reset => "reset"
  | quit => "quit"

/-- Whether the command is of no use without an argument. -/
def takesArgument : Command → Bool
  | load | ast => true
  | help | reset | quit => false

def description : Command → String
  | help => "print this message."
  | load => "evaluate a whole file in the current session."
  | ast =>
    "print the parsed form of the argument, fully parenthesized, without evaluating it."
  | reset => "forget every binding made so far."
  | quit => "leave the interpreter."

/-- The command with a given short or long name. -/
def named? (name : String) : Option Command :=
  all.find? fun command => name == command.shortName || name == command.longName

/-- The first command whose long name has a given stem. -/
def withStem? (stem : String) : Option Command :=
  all.find? fun command => Text.hasStem stem command.longName

/-- One line of the usage text. -/
def usageLine (command : Command) : String :=
  ":" ++ command.shortName ++ ", :" ++ command.longName ++ "\t" ++ command.description ++ "\n"

/-- What the help command prints. -/
def usage : String :=
  "An interpreter for the Monkey language.\n" ++
  "Enter expressions or statements; bindings made with `let` persist across lines.\n" ++
  "\n" ++
  "Available commands:\n" ++ String.join (all.map usageLine)

end Command

/-- What a line with a leading colon asks for. -/
inductive CommandLine where
  | run (command : Command) (argument : String)
  | missingArgument (command : Command)
  | unknown (name : String)
deriving DecidableEq

namespace CommandLine

/-- What a name and an argument ask for. -/
def ofParts (name argument : String) : CommandLine :=
  match Command.named? name with
  | none => unknown name
  | some command =>
    if command.takesArgument && argument.isEmpty then missingArgument command
    else run command argument

/-- Splits a command line into its name and its argument, both without white space around them.
Any other line gives nothing. -/
def parse? (line : String) : Option CommandLine :=
  match Text.trimStart line.toList with
  | ':' :: rest =>
    let parts := Text.trim rest
    let name := parts.takeWhile fun character => !Text.isWhite character
    let argument := parts.dropWhile fun character => !Text.isWhite character
    some (ofParts (String.ofList name) (String.ofList (Text.trim argument)))
  | _ => none

end CommandLine

end Monkey
