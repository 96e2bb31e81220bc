/-
This file says what reading a file can come to, and holds directories of files
that can be read. A path is followed one component after the other from the
directory: each component but the last must be a directory, a single dot and an
empty component stay where they are, and two dots go up. What lies outside the
directory is not known; it is taken to hold nothing but directories around it.
-/

namespace Monkey

/-- Why a file could not be read. -/
inductive ReadFailure where
  | absent
  | isDirectory
  | notDirectory
  | nameTooLong
  | nulInName
  | notText
  /-- Any other reason, in the words of the system. -/
  | other (reason : String)
deriving DecidableEq

/-- The reason as the system gives it. -/
def ReadFailure.message : ReadFailure → String
  | absent => "No such file or directory (os error 2)"
  | isDirectory => "Is a directory (os error 21)"
  | notDirectory => "Not a directory (os error 20)"
  | nameTooLong => "File name too long (os error 36)"
  | nulInName => "file name contained an unexpected NUL byte"
  | notText => "stream did not contain valid UTF-8"
  | other reason => reason

/-- What reading comes to. -/
abbrev Contents := Except ReadFailure String

/-- The text that some bytes encode in UTF-8. -/
def textOfBytes (bytes : List UInt8) : Contents :=
  match String.fromUTF8? ⟨bytes.toArray⟩ with
  | some text => .ok text
  | none => .error .notText

/-! ### Directories -/

/-- What stands at a path. -/
inductive Entry where
  | file (bytes : List UInt8)
  | directory
deriving Inhabited

/-- The files and directories below a directory, each with the components of its path. A
directory need not be listed if something in it is. -/
structure Files where
  entries : List (List String × Entry)
deriving Inhabited

namespace Files

/-- The components of a path, the empty ones included. -/
def components (path : String) : List String :=
  path.splitOn "/"

/-- A component that stays where it is. -/
def isStill (component : String) : Bool :=
  component == "" || component == "."

/-- Files with their paths. -/
def ofList (entries : List (String × Entry)) : Files :=
  ⟨entries.map fun entry => ((components entry.1).filter fun part => !isStill part, entry.2)⟩

/-- What stands at some components. The directory itself has none. -/
def entry? (files : Files) (place : List String) : Option Entry :=
  match files.entries.lookup place with
  | some entry => some entry
  | none =>
    if place.isEmpty || files.entries.any fun entry => place.isPrefixOf entry.1 then
      some .directory
    else
      none

/-- Where a path has come to. -/
inductive Place where
  /-- Some directory around this one. -/
  | outside
  /-- What stands at some components. -/
  | inside (place : List String)

/-- The greatest length of one component, in bytes. -/
def greatestName : Nat := 255

/-- The greatest length of a whole path, in bytes. -/
def greatestPath : Nat := 4095

/-- Follows one component. -/
def step (files : Files) (component : String) : Place → Except ReadFailure Place
  | .outside =>
    if isStill component || component == ".." then .ok .outside
    else if greatestName < component.utf8ByteSize then .error .nameTooLong
    else .error .absent
  | .inside place =>
    match files.entry? place with
    | none => .error .absent
    | some (.file _) => .error .notDirectory
    | some .directory =>
      if isStill component then .ok (.inside place)
      else if component == ".." then
        .ok (if place.isEmpty then .outside else .inside place.dropLast)
      else if greatestName < component.utf8ByteSize then .error .nameTooLong
      else if (files.entry? (place ++ [component])).isNone then .error .absent
      else .ok (.inside (place ++ [component]))

/-- Follows components one after the other. -/
def follow (files : Files) : List String → Place → Except ReadFailure Place
  | [], place => .ok place
  | component :: rest, place =>
    match files.step component place with
    | .ok next => files.follow rest next
    | .error failure => .error failure

/-- What stands at a path. -/
def find (files : Files) (path : String) : Except ReadFailure Entry :=
  if path.toList.contains '\x00' then .error .nulInName
  else if path.isEmpty then .error .absent
  else if greatestPath < path.utf8ByteSize then .error .nameTooLong
  else
    let start := if path.toList.head? = some '/' then Place.outside else .inside []
    match files.follow (components path) start with
    | .ok .outside => .ok .directory
    | .ok (.inside place) => .ok ((files.entry? place).getD .directory)
    | .error failure => .error failure

/-- The text of the file at a path. -/
def read (files : Files) (path : String) : Contents :=
  match files.find path with
  | .ok (.file bytes) => textOfBytes bytes
  | .ok .directory => .error .isDirectory
  | .error failure => .error failure

/-- Whether a file can be written into a directory: the directory is there, and no directory has
the name of the file. -/
def accepts (files : Files) (place : List String) (name : String) : Bool :=
  match files.entry? place, files.entry? (place ++ [name]) with
  | some .directory, some .directory => false
  | some .directory, _ => true
  | _, _ => false

end Files

end Monkey
