import DreamLexer.Command.Paint

/-!
# The reporter

A reporter writes a line for every error and warning of a run, and counts the errors. It is told
about errors by the lexer as well as by the run itself.
-/

namespace DreamLexer.Command

/-- What a reporter has written and counted. -/
structure Reporter where
  coloured : Bool
  errors : Nat
  /-- The lines written, the first one first. -/
  lines : List String
deriving DecidableEq

namespace Reporter

/-- A reporter that has nothing to tell yet. Colours are used on a terminal only. -/
def start (pretty terminal : Bool) : Reporter := ⟨pretty && terminal, 0, []⟩

/-- Writes a line. -/
def write (r : Reporter) (line : String) : Reporter := { r with lines := r.lines ++ [line] }

/-- Counts an error. -/
def count (r : Reporter) : Reporter := { r with errors := r.errors + 1 }

/-- Tells about a catalogued message, such as a warning of the run. -/
def emit (r : Reporter) (d : Diagnostic) : Reporter :=
  (if d.isError then r.count else r).write (diagnosticLine r.coloured d)

/-- Tells about an error that concerns no unit. -/
def error (r : Reporter) (text : String) : Reporter := r.count.write (errorLine r.coloured text)

/-- Tells about an error in a unit. -/
def report (r : Reporter) (text : String) (position : Position) : Reporter :=
  r.count.write (lexErrorLine r.coloured text position)

/-- Tells what a lexer told. A lexer never looks at what it told before, so this may wait until it
is done with its unit; all that it tells has a place. -/
def relay (r : Reporter) (told : Diagnostics) : Reporter :=
  told.toList.foldl (fun r d => match d.position with
    | some position => r.report d.text position
    | none => r.emit d) r

/-- The line that counts the errors, if there are any. -/
def summary? (r : Reporter) : Option String :=
  if r.errors = 0 then none else some (summaryLine r.coloured r.errors)

/-- The lines at the end of a run: the summary, if there is one, behind an empty line. -/
def closing (r : Reporter) : List String :=
  match r.summary? with
  | none => []
  | some summary => ["", summary]

end Reporter

end DreamLexer.Command
