import DreamLexer.Diagnostic.Basic
import DreamLexer.Text.Blank

/-!
# Lexical errors

A fault is what a reader meets in the text; an error is a fault with its message and place. Every
error ends the lexing of its unit.
-/

namespace DreamLexer

/-- The kinds of errors. -/
inductive ErrorKind where
  /-- A space while the indentation is still being read. -/
  | badIndentation
  /-- The text ends inside a string literal. -/
  | unterminatedString
  /-- The text ends inside a block comment. -/
  | unterminatedComment
  /-- A line that starts with `#` and is no linemarker. -/
  | malformedDirective
  /-- A character that no token starts with. -/
  | unexpectedCharacter
deriving DecidableEq

/-- The catalogued message of an error. -/
def ErrorKind.message : ErrorKind → Message
  | .badIndentation => .indentationMustUseTabs
  | .unterminatedString => .unterminatedStringLiteral
  | .unterminatedComment => .unterminatedBlockComment
  | .malformedDirective => .malformedDirective
  | .unexpectedCharacter => .unexpectedCharacter

/-- An error with its message made out. -/
structure LexError where
  kind : ErrorKind
  text : String
  position : Position
deriving DecidableEq

namespace LexError

/-- The error of a kind for these arguments. -/
def ofKind (kind : ErrorKind) (arguments : List String) (position : Position) : LexError :=
  ⟨kind, kind.message.format arguments, position⟩

/-- The code of the error's message. -/
def code (e : LexError) : Nat := e.kind.message.code

/-- The place and the message. -/
def display (e : LexError) : String := e.position.display ++ ": " ++ e.text

end LexError

/-- What keeps a reader from going on. -/
inductive Fault where
  /-- A space where only tabs may stand. -/
  | spaceInIndentation
  /-- A string literal without its closing quote. -/
  | openString
  /-- A block comment without its end. -/
  | openComment
  /-- A line that starts with `#` and is no linemarker. -/
  | directive (line : List Char)
  /-- A character that no token starts with. -/
  | character (c : Char)
deriving DecidableEq

namespace Fault

/-- The kind of error the fault leads to. -/
def kind : Fault → ErrorKind
  | .spaceInIndentation => .badIndentation
  | .openString => .unterminatedString
  | .openComment => .unterminatedComment
  | .directive _ => .malformedDirective
  | .character _ => .unexpectedCharacter

/-- What the message quotes: a line without the blanks at its end, or the character. -/
def arguments : Fault → List String
  | .directive line => [String.ofList (Text.trimEnd line)]
  | .character c => [String.singleton c]
  | _ => []

/-- Whether the reader came to the end of the text before it gave up. -/
def readsToEnd : Fault → Bool
  | .openString | .openComment => true
  | _ => false

/-- The error for a fault met by a reader that started at `start` and gave up at `stop`. A string
literal is missed at the end of the text, all else is found where it starts. -/
def error (fault : Fault) (start stop : Position) : LexError :=
  .ofKind fault.kind fault.arguments (if fault = .openString then stop else start)

end Fault

end DreamLexer
