import DreamLexer.Diagnostic.Basic

/-!
# Paint

The lines that tell about errors and warnings. On a terminal parts of them are coloured; colour is
put around a part and changes nothing else.
-/

namespace DreamLexer.Command

/-- The sequences that switch colours on a terminal. -/
inductive Colour where
  | red
  | yellow
  | cyan
  | bold
  | reset
deriving DecidableEq

/-- The sequence of a colour. -/
def Colour.code : Colour → String
  | .red => "\x1b[31m"
  | .yellow => "\x1b[33m"
  | .cyan => "\x1b[36m"
  | .bold => "\x1b[1m"
  | .reset => "\x1b[0m"

/-- A text in the given colours, if colours are wanted. -/
def paint (coloured : Bool) (colours : List Colour) (text : String) : String :=
  if coloured then String.join (colours.map Colour.code) ++ text ++ Colour.reset.code else text

/-- The line for an error in a unit. -/
def lexErrorLine (coloured : Bool) (text : String) (position : Position) : String :=
  paint coloured [.bold, .red] "Lex error" ++ " at " ++
    paint coloured [.cyan] position.display ++ ": " ++ text

/-- The colour of a severity. -/
def severityColour : Severity → Colour
  | .warning => .yellow
  | .error => .red

/-- The line for a catalogued message. -/
def diagnosticLine (coloured : Bool) (d : Diagnostic) : String :=
  (match d.position with
    | some p => paint coloured [.cyan] p.display ++ ": "
    | none => "") ++
  paint coloured [.bold, severityColour d.severity] d.severity.display ++
  (match d.code with
    | some code => " " ++ paint coloured [.cyan] ("DM" ++ toString code)
    | none => "") ++
  ": " ++ d.text

/-- The line for an error that concerns no unit. -/
def errorLine (coloured : Bool) (text : String) : String :=
  paint coloured [.bold, .red] "error" ++ ": " ++ text

/-- The line that counts the errors. -/
def summaryLine (coloured : Bool) (errors : Nat) : String :=
  paint coloured [.red]
    ("Found " ++ toString errors ++ (if errors = 1 then " error." else " errors."))

end DreamLexer.Command
