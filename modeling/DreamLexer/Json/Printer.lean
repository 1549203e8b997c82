import DreamLexer.Json.Lexeme

/-!
# Layouts of a JSON text

The compact layout writes the lexemes and nothing between them. The indented layout starts a new
line for every element and entry, two spaces deeper than the bracket it stands in, and puts a space
after every colon; an empty array or object stays on its line.
-/

namespace DreamLexer.Json

/-- The lexemes without any blank between them. -/
def compact (lexemes : List Lexeme) : List Char := lexemes.flatMap Lexeme.text

/-- A line feed and the indentation of a line inside `depth` brackets. -/
def lineBreak (depth : Nat) : List Char := '\n' :: List.replicate (2 * depth) ' '

/-- The blanks between two neighbours, the second one inside `depth` brackets. -/
def gap (depth : Nat) (before after : Lexeme) : List Char :=
  if after.closes then
    if before.opens then [] else lineBreak (depth - 1)
  else if before.opens || before == .comma then lineBreak depth
  else if before == .colon then [' ']
  else []

/-- What was written so far: the text, the open brackets and the last lexeme. -/
structure Page where
  text : String
  depth : Nat
  last : Option Lexeme

/-- Writes one more lexeme, after the blanks that part it from the last one. -/
def Page.write (page : Page) (lexeme : Lexeme) : Page where
  text := page.text ++ String.ofList
    ((match page.last with
      | some last => gap page.depth last lexeme
      | none => []) ++ lexeme.text)
  depth :=
    if lexeme.opens then page.depth + 1
    else if lexeme.closes then page.depth - 1
    else page.depth
  last := some lexeme

/-- The lexemes in the indented layout. -/
def indented (lexemes : List Lexeme) : List Char :=
  (lexemes.foldl Page.write ⟨"", 0, none⟩).text.toList

end DreamLexer.Json
