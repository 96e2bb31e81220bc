/-
This file is the program: it reads the files, the lines and the history that an
invocation asks for, and writes what comes of them. What comes of them is
decided elsewhere, by `Options.start` and by `Prompt.feed`.
-/

import Monkey.Invocation

namespace Monkey.Main

/-- Calls nest deeper than this only if they never end. -/
def callDepth : Nat := 1000000000

/-! ### Writing -/

def write (emissions : List Emission) : IO Unit := do
  for emission in emissions do
    match emission with
    | .output text => (← IO.getStdout).putStr text
    | .complaint text => (← IO.getStderr).putStr text
  (← IO.getStdout).flush

/-- Stops the program, because the bound on the depth of calls was met. -/
def tooDeep {Result : Type} : IO Result :=
  throw (IO.userError "calls are nested too deep")

/-! ### Reading -/

/-- Why the system did not read a file. -/
def failureOf : IO.Error → ReadFailure
  | .noFileOrDirectory .. => .absent
  | .inappropriateType _ 21 _ => .isDirectory
  | .inappropriateType .. => .notDirectory
  | other => .other (toString other)

/-- Reads a whole file. -/
def readFile (path : String) : IO Contents := do
  if path.toList.contains '\x00' then
    return .error .nulInName
  try
    return textOfBytes (← IO.FS.readBinFile path).data.toList
  catch error =>
    return .error (failureOf error)

/-- Reads the whole input. -/
def readInput : IO Contents := do
  return textOfBytes (← (← IO.getStdin).readBinToEnd).data.toList

/-- Reads files, and gives each by its path. -/
def readFiles (paths : List String) : IO (String → Contents) := do
  let known ← paths.mapM fun path => return (path, ← readFile path)
  return fun path => (known.lookup path).getD (.error .absent)

/-- Reads bytes up to the end of a line, or of the input. -/
partial def readLineBytes (input : IO.FS.Stream) (line : List UInt8) : IO (List UInt8) := do
  match (← input.read 1).data.toList with
  | [] => return line.reverse
  | byte :: _ =>
    if byte = Text.lineFeed then return (byte :: line).reverse
    else readLineBytes input (byte :: line)

/-- Reads the next line, if there is one. On a terminal it is asked for. -/
def readLine (prompt : Prompt) : IO (Option Line) := do
  let input ← IO.getStdin
  if ← input.isTty then
    write [.output (if prompt.started.isSome then ".. " else ">> ")]
  let bytes ← readLineBytes input []
  return if bytes.isEmpty then none else some (Line.ofBytes bytes)

/-! ### The prompt -/

/-- The files that the prompt reads if it is given a line. -/
def wantedFiles (prompt : Prompt) : Line → List String
  | .text line =>
    match CommandLine.parse? (Prompt.extend prompt.started line) with
    | some (.run .load path) => [path]
    | _ => []
  | .unreadable => []

/-- Answers lines until the prompt ends. -/
partial def converse (prompt : Prompt) : IO Prompt := do
  if prompt.ended then
    return prompt
  let step ←
    match ← readLine prompt with
    | none => pure (prompt.close callDepth fun _ => .error .absent)
    | some line => pure (prompt.feed callDepth (← readFiles (wantedFiles prompt line)) line)
  match step with
  | none => tooDeep
  | some (next, emissions) => do
    write emissions
    converse next

/-- Where the history of the prompt is kept. -/
def historyPath : IO String := do
  match ← IO.getEnv "HOME" with
  | some home => return home ++ "/.cache/monkey_hist"
  | none =>
    write [.complaintLine ("warning: failed to read env variable HOME " ++
      "(environment variable not found), using fallback /tmp.")]
    return "/tmp/monkey_hist"

/-- Adds texts, the latest first, to the history that is kept. -/
def saveHistory (path : String) (texts : List String) : IO Unit := do
  if texts.isEmpty then
    return
  let kept := match ← readFile path with
    | .ok kept => kept
    | .error _ => ""
  let added := String.join (texts.reverse.map fun text => text.trimAsciiEnd.toString ++ "\n")
  try
    IO.FS.writeFile path (kept ++ added)
  catch _ =>
    write [unsavedHistory]

/-! ### The program -/

def run (arguments : List String) : IO UInt32 := do
  match Options.parse arguments with
  | .error refusal =>
    write [refusal.emission]
    return refusal.status.toUInt32
  | .ok options =>
    let read ← readFiles options.files
    let input ←
      if options.noInteractive && options.files.isEmpty then readInput else pure (.ok "")
    match options.start callDepth read input .interruptible with
    | none => tooDeep
    | some started =>
      write started.emissions
      if started.startup = .prompt then
        if options.noHistory then
          let _ ← converse (.ofSession started.session)
        else
          let path ← historyPath
          let last ← converse (.ofSession started.session)
          saveHistory path (options.savedHistory last)
      return started.startup.status.toUInt32

end Monkey.Main

def main (arguments : List String) : IO UInt32 :=
  Monkey.Main.run arguments
