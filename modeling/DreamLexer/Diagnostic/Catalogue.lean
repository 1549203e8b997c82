import DreamLexer.Text.Template

/-!
# The catalogue of messages

Every message has a code, a severity and a template whose places are filled in when it is raised.
-/

namespace DreamLexer

/-- How grave a message is. -/
inductive Severity where
  | warning
  | error
deriving DecidableEq

/-- The word a message starts with. -/
def Severity.display : Severity → String
  | .warning => "warning"
  | .error => "error"

/-- An entry of the catalogue. -/
structure Message where
  code : Nat
  severity : Severity
  template : String

namespace Message

/-- The text of the message for these arguments. -/
def format (message : Message) (arguments : List String) : String :=
  String.ofList (Text.fill message.template.toList (arguments.map String.toList))

/-- A space stands where only tabs may. -/
def indentationMustUseTabs : Message :=
  ⟨1001, .error, "Spaces are not allowed for indentation. Please use tabs."⟩

/-- A string literal is not closed. -/
def unterminatedStringLiteral : Message :=
  ⟨1002, .error, "Reached end of input while scanning a string literal."⟩

/-- A block comment is not closed. -/
def unterminatedBlockComment : Message :=
  ⟨1003, .error, "Reached end of input while scanning a block comment; '*/' expected."⟩

/-- A line that starts with `#` is not a linemarker. -/
def malformedDirective : Message :=
  ⟨1004, .error, "Malformed preprocessor directive '\x7b0\x7d'."⟩

/-- No token starts with the character. -/
def unexpectedCharacter : Message :=
  ⟨1005, .error, "Unexpected character '\x7b0\x7d'."⟩

/-- A unit holds nothing to lex. -/
def unitHasNoTokens : Message :=
  ⟨2001, .warning, "Unit '\x7b0\x7d' produced no tokens."⟩

end Message

end DreamLexer
