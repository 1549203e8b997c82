import DreamLexer.Json.Lexeme
import DreamLexer.Source.Position
import DreamLexer.Text.Quoted
import DreamLexer.Token.Kind

/-!
# Tokens

A token has a kind, the text it stands for if its kind leaves that open, and the span it was read
from. Block markers that come from the indentation, and all new lines, have no span.
-/

namespace DreamLexer

/-- A token of a unit. -/
structure Token where
  kind : TokenKind
  payload : Option String
  span : Option Span
deriving DecidableEq

namespace Token

/-- The new line token. -/
def newline : Token := ⟨.newline, none, none⟩

/-- A block that the indentation opens. -/
def indentBegin : Token := ⟨.blockBegin, none, none⟩

/-- A block that the indentation closes. -/
def indentEnd : Token := ⟨.blockEnd, none, none⟩

/-- The kind and, in brackets and quoted, the payload. -/
def display (t : Token) : String :=
  match t.payload with
  | none => t.kind.name
  | some payload => t.kind.name ++ "(" ++ String.ofList (Text.quoted payload.toList) ++ ")"

/-- The token and its span on one line; a dash stands for a missing span. -/
def describe (t : Token) : String :=
  t.display ++ " " ++
    match t.span with
    | none => "-"
    | some span => span.display

end Token

/-- The position as a JSON object. -/
def Position.json (p : Position) : List Json.Lexeme :=
  Json.object [("unit", [.string p.unit]), ("line", [.natural p.line.toNat]),
    ("column", [.natural p.column.toNat])]

/-- The span as a JSON object. -/
def Span.json (s : Span) : List Json.Lexeme :=
  Json.object [("start", s.start.json), ("end", s.stop.json)]

/-- The token as a JSON object; what is missing is null. -/
def Token.json (t : Token) : List Json.Lexeme :=
  Json.object [
    ("kind", [.string t.kind.name]),
    ("payload", match t.payload with
      | none => [.null]
      | some payload => [.string payload]),
    ("span", match t.span with
      | none => [.null]
      | some span => span.json)]

end DreamLexer
