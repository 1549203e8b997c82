/-!
# JSON lexemes

A JSON text is a sequence of lexemes with blanks between them. The lexemes carry all of its
meaning; `Json/Printer` says where blanks are put when a text is written, and `Json/Reading` takes a
text apart into lexemes.
-/

namespace DreamLexer.Json

/-- The smallest meaningful pieces of a JSON text. A number is kept as it is written. -/
inductive Lexeme where
  | openArray
  | closeArray
  | openObject
  | closeObject
  | comma
  | colon
  | string (content : String)
  | number (literal : String)
  | bool (value : Bool)
  | null
deriving DecidableEq

/-- How a character of a string is written: the quote, the backslash and the controls are escaped,
the commonest controls by a letter. -/
def escapedChar (c : Char) : List Char :=
  if c = '\x22' then ['\\', '\x22']
  else if c = '\\' then ['\\', '\\']
  else if c = '\x08' then ['\\', 'b']
  else if c = '\x0c' then ['\\', 'f']
  else if c = '\n' then ['\\', 'n']
  else if c = '\r' then ['\\', 'r']
  else if c = '\t' then ['\\', 't']
  else if c.toNat < 0x20 then
    ['\\', 'u', '0', '0', Nat.digitChar (c.toNat / 16), Nat.digitChar (c.toNat % 16)]
  else [c]

namespace Lexeme

/-- The lexeme as it is written. -/
def text : Lexeme → List Char
  | .openArray => ['[']
  | .closeArray => [']']
  | .openObject => ['\x7b']
  | .closeObject => ['\x7d']
  | .comma => [',']
  | .colon => [':']
  | .string content => ['\x22'] ++ content.toList.flatMap escapedChar ++ ['\x22']
  | .number literal => literal.toList
  | .bool true => ['t', 'r', 'u', 'e']
  | .bool false => ['f', 'a', 'l', 's', 'e']
  | .null => ['n', 'u', 'l', 'l']

/-- Whether the lexeme opens an array or object. -/
def opens : Lexeme → Bool
  | .openArray | .openObject => true
  | _ => false

/-- Whether the lexeme closes an array or object. -/
def closes : Lexeme → Bool
  | .closeArray | .closeObject => true
  | _ => false

/-- The literal of a natural number. -/
def natural (n : Nat) : Lexeme := .number (toString n)

end Lexeme

/-- The lexemes of an array of the given values. -/
def array (values : List (List Lexeme)) : List Lexeme :=
  [.openArray] ++ [Lexeme.comma].intercalate values ++ [.closeArray]

/-- The lexemes of an object of the given entries. -/
def object (entries : List (String × List Lexeme)) : List Lexeme :=
  [.openObject] ++
    [Lexeme.comma].intercalate (entries.map fun (key, value) => [.string key, .colon] ++ value) ++
    [.closeObject]

end DreamLexer.Json
