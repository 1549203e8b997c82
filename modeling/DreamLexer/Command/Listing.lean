import DreamLexer.Command.Invocation
import DreamLexer.Json.Printer
import DreamLexer.Token.Basic

/-!
# Listings

The tokens of the units that were lexed are written as lines of text or as one JSON array.
-/

namespace DreamLexer.Command

/-- A unit that was lexed. -/
structure UnitTokens where
  unit : String
  tokens : List Token
deriving DecidableEq

/-- A token's line: where it starts, a tab and the token. A dash stands for a missing place. -/
def tokenLine (t : Token) : String :=
  (match t.span with
    | some span => span.start.display
    | none => "-") ++ "\t" ++ t.display

/-- The lines of a unit. -/
def UnitTokens.lines (u : UnitTokens) : List String := u.tokens.map tokenLine

/-- The unit as a JSON object. -/
def UnitTokens.json (u : UnitTokens) : List Json.Lexeme :=
  Json.object [("unit", [.string u.unit]), ("tokens", Json.array (u.tokens.map Token.json))]

/-- Every line with a line feed behind it. -/
def joinLines (lines : List String) : String := String.join (lines.map (· ++ "\n"))

/-- The units in the format that is wanted. -/
def listing (format : Format) (pretty : Bool) (units : List UnitTokens) : String :=
  match format with
  | .text => joinLines (units.flatMap UnitTokens.lines)
  | .json =>
    let lexemes := Json.array (units.map UnitTokens.json)
    String.ofList (if pretty then Json.indented lexemes else Json.compact lexemes) ++ "\n"

end DreamLexer.Command
