import DreamLexer.Diagnostic.Catalogue
import DreamLexer.Source.Position

/-!
# Diagnostics

A diagnostic is a message with its text made out and, if it has one, its place. A collection keeps
diagnostics in the order in which they arrive.
-/

namespace DreamLexer

/-- A message as it was raised. One that was only reported as text has no code. -/
structure Diagnostic where
  position : Option Position
  text : String
  code : Option Nat
  severity : Severity
deriving DecidableEq

namespace Diagnostic

/-- The diagnostic of a catalogued message, at a place if one is given. -/
def ofMessage (message : Message) (arguments : List String) (position : Option Position) :
    Diagnostic :=
  ⟨position, message.format arguments, some message.code, message.severity⟩

/-- An error of which only text and place are known. -/
def reported (text : String) (position : Position) : Diagnostic :=
  ⟨some position, text, none, .error⟩

/-- Whether the diagnostic is an error. -/
def isError (d : Diagnostic) : Bool := d.severity == .error

/-- The place, the severity and the code, as far as they are known, and the text. -/
def display (d : Diagnostic) : String :=
  (match d.position with
    | some p => p.display ++ ": "
    | none => "") ++
  d.severity.display ++
  (match d.code with
    | some code => " DM" ++ toString code
    | none => "") ++
  ": " ++ d.text

end Diagnostic

/-- The diagnostics told so far, the first one first. -/
structure Diagnostics where
  toList : List Diagnostic
deriving DecidableEq

namespace Diagnostics

/-- Nothing told yet. -/
def empty : Diagnostics := ⟨[]⟩

/-- The collection with one more diagnostic. -/
def add (told : Diagnostics) (d : Diagnostic) : Diagnostics := ⟨told.toList ++ [d]⟩

/-- The collection after it was told an error's text and place. -/
def report (told : Diagnostics) (text : String) (position : Position) : Diagnostics :=
  told.add (.reported text position)

/-- The number of diagnostics. -/
def size (told : Diagnostics) : Nat := told.toList.length

/-- Whether nothing was told. -/
def isEmpty (told : Diagnostics) : Bool := told.toList.isEmpty

/-- The number of errors among the diagnostics. -/
def errorCount (told : Diagnostics) : Nat := told.toList.countP Diagnostic.isError

/-- Whether there is an error among the diagnostics. -/
def hasErrors (told : Diagnostics) : Bool := told.toList.any Diagnostic.isError

/-- The diagnostic told last. -/
def last? (told : Diagnostics) : Option Diagnostic := told.toList.getLast?

end Diagnostics

end DreamLexer
