/-!
# Reading command lines

A command line holds options and other arguments in any order. Long options
start with two dashes and may have their value behind an equals sign; short
ones start with one dash, may be run together, and may have their value right
behind them. Two dashes alone end the options.
-/

namespace RenderLoop

/-- An option of a command. -/
structure OptionSpec where
  /-- What the option is about. -/
  subject : String
  /-- The long form, dashes included. -/
  long : String
  short : Option Char := none
  /-- The value of an option that takes none of its own. -/
  switch : Option String := none
  deriving DecidableEq, Repr, Inhabited

/-- A command line that cannot be taken. -/
inductive UsageError where
  | unknownOption (written : String)
  | missingValue (written : String)
  | unexpectedValue (written : String)
  | badValue (subject written : String)
  | extraArgument (written : String)
  | missingCommand
  | unknownCommand (written : String)
  deriving DecidableEq, Repr, Inhabited

def UsageError.message : UsageError → String
  | unknownOption s => "No such option: " ++ s
  | missingValue s => "Option '" ++ s ++ "' requires an argument."
  | unexpectedValue s => "Option '" ++ s ++ "' does not take a value."
  | badValue subject s => "Invalid value for '" ++ subject ++ "': " ++ s
  | extraArgument s => "Got unexpected extra argument (" ++ s ++ ")"
  | missingCommand => "Missing command."
  | unknownCommand s => "No such command '" ++ s ++ "'."

/-- What was read of a command line. -/
structure CommandLine where
  /-- Values by subject, in the order given. -/
  given : List (String × String) := []
  arguments : List String := []
  deriving DecidableEq, Repr, Inhabited

namespace CommandLine

/-- The value given last for a subject. -/
def last? (c : CommandLine) (subject : String) : Option String :=
  (c.given.reverse.find? (·.1 == subject)).map (·.2)

def has (c : CommandLine) (subject : String) : Bool := (c.last? subject).isSome

/-- What one argument says: values, and the option that waits for the next
argument, if one does. -/
abbrev ArgumentReading := List (String × String) × Option OptionSpec

/-- Reads an argument that starts with two dashes. -/
def readLong (specs : List OptionSpec) (arg : List Char) :
    Except UsageError ArgumentReading :=
  let name := String.ofList (arg.takeWhile (· != '='))
  let value := (arg.dropWhile (· != '=')).drop 1
  let valued := arg.contains '='
  match specs.find? (·.long == name) with
  | none => .error (.unknownOption name)
  | some spec =>
    match spec.switch with
    | some v =>
      if valued then .error (.unexpectedValue name)
      else .ok ([(spec.subject, v)], none)
    | none =>
      if valued then .ok ([(spec.subject, String.ofList value)], none)
      else .ok ([], some spec)

/-- Reads short options that are run together. -/
def readShort (specs : List OptionSpec) :
    List Char → Except UsageError ArgumentReading
  | [] => .ok ([], none)
  | c :: rest =>
    match specs.find? (·.short == some c) with
    | none => .error (.unknownOption (String.ofList ['-', c]))
    | some spec =>
      match spec.switch with
      | some v => do
        let (values, waiting) ← readShort specs rest
        return ((spec.subject, v) :: values, waiting)
      | none =>
        if rest.isEmpty then .ok ([], some spec)
        else .ok ([(spec.subject, String.ofList rest)], none)

/-- An argument is an option. -/
def isOption (arg : String) : Bool := arg.startsWith "-" && arg != "-"

/-- Reads an option. -/
def readOption (specs : List OptionSpec) (arg : String) :
    Except UsageError ArgumentReading :=
  if arg.startsWith "--" then readLong specs arg.toList
  else readShort specs (arg.toList.drop 1)

/-- Reads a command line. If `mixed`, options may come after other arguments. -/
def read (specs : List OptionSpec) (mixed : Bool) :
    List String → Except UsageError CommandLine
  | [] => .ok {}
  | arg :: rest =>
    if arg == "--" then .ok { arguments := rest }
    else if isOption arg then do
      let (values, waiting) ← readOption specs arg
      match waiting, rest with
      | none, rest =>
        let c ← read specs mixed rest
        return { c with given := values ++ c.given }
      | some spec, v :: rest =>
        let c ← read specs mixed rest
        return { c with given := values ++ (spec.subject, v) :: c.given }
      | some spec, [] => .error (.missingValue spec.long)
    else if mixed then do
      let c ← read specs mixed rest
      return { c with arguments := arg :: c.arguments }
    else .ok { arguments := arg :: rest }

end CommandLine

end RenderLoop
