import DreamLexer.Command.Run

/-!
# The program

Reads the files that a run asks for and prints what the run leaves behind.
-/

namespace DreamLexer.Command

/-- What is told when the arguments are not in order. -/
def usage : String :=
  "Usage: dmlex [-p|--project PATH] [--format json|text] [--tab-width N] [--no-comments] " ++
    "[--collapse-newlines] [--keywords] [--pretty] [--no-color] [-v|--verbose] [--] [FILE]..."

/-- Looks up a path: nothing if there is nothing, else the text if it can be read. -/
def lookUp (path : String) : IO (List (String × Option String)) := do
  try
    let bytes ← IO.FS.readBinFile path
    return [(path, String.fromUTF8? bytes)]
  catch
    | .noFileOrDirectory .. => return []
    | _ => return [(path, none)]

/-- Looks up all paths that a run asks for. -/
def survey (invocation : Invocation) : IO Disk := do
  let project ← lookUp (invocation.project.getD Project.standardPath)
  match inputs invocation (.ofEntries project) with
  | .error _ => return .ofEntries project
  | .ok found => return .ofEntries (project ++ (← found.files.mapM lookUp).flatten)

/-- Prints what a run leaves behind. -/
def present (outcome : Outcome) : IO Unit := do
  IO.eprint (joinLines outcome.reports)
  match outcome.failure with
  | some failure => IO.eprintln ("Error: " ++ failure.display)
  | none => IO.print outcome.stdout

end DreamLexer.Command

open DreamLexer.Command in
/-- Lexes the files named on the command line or in the project. -/
def main (arguments : List String) : IO UInt32 := do
  match Invocation.parse? arguments with
  | none =>
    IO.eprintln usage
    return 2
  | some invocation =>
    let outcome := run invocation (← (← IO.getStderr).isTty) (← survey invocation)
    present outcome
    return outcome.exitCode
