import RenderLoop.Command.Run
import RenderLoop.Files.Snapshot
import RenderLoop.Data.Json

/-!
# The program

The project to work on comes on standard input: a JSON list of its files, with
the parse trees of its sources. The first line is the project as it is, each
further line a list of files that have changed by the next look of a watch.
The command line is the usual one; its output goes to standard output and
complaints go to standard error.
-/

namespace RenderLoop

/-- The directory the project is placed in. -/
def projectRoot : Path := .ofString "/proj"

/-- The entries a line of input lists. -/
def entriesOfLine (line : String) : List Value :=
  ((Json.parse? line.toList).bind Value.asList?).getD []

/-- The states a project goes through as lists of changed files come in. -/
def statesAfter (fs : FileSystem) (changes : List (List Value)) :
    List FileSystem :=
  (changes.foldl (fun (states, fs, n) change =>
    let fs := Snapshot.putAll n projectRoot fs change
    (states ++ [fs], fs, n + 1)) (([] : List FileSystem), fs, 1)).1

/-- What a command line comes to: what is printed, what is complained about,
and the exit code. -/
def program (args : List String) (lines : List String) (duration : Nat) :
    String × String × Nat :=
  let fs := Snapshot.read projectRoot ((lines.head?.map entriesOfLine).getD [])
  match Command.read fs args with
  | .error e => ("", e.message, 2)
  | .ok command =>
    match command.run {} duration fs
      (statesAfter fs (lines.tail.map entriesOfLine)) with
    | .ok o => (o.output, "", o.exit)
    | .error e => ("", e.message, 1)

/-- The lines of a stream. -/
partial def readLines (stream : IO.FS.Stream) (lines : List String) :
  IO (List String) := do
  let line ← stream.getLine
  if line.isEmpty then return lines else readLines stream (lines ++ [line])

end RenderLoop

/-- Runs the command line on the project that comes in. -/
def main (args : List String) : IO UInt32 := do
  let start ← IO.monoMsNow
  let lines ← RenderLoop.readLines (← IO.getStdin) []
  let (output, complaint, exit) :=
    RenderLoop.program args lines ((← IO.monoMsNow) - start)
  (← IO.getStdout).putStr output
  if complaint != "" then (← IO.getStderr).putStrLn complaint
  return exit.toUInt32
