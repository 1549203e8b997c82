import DreamLexer.Text.Hidden

/-!
# Quoted text

A text between double quotes on one line: a quote or backslash inside has a backslash before it,
and a character that does not show is written by name or number.
-/

namespace DreamLexer.Text

/-- The double quote. -/
def doubleQuote : Char := '\x22'

/-- `\u{…}` with the number of the character in lower-case hexadecimal digits. -/
def numbered (c : Char) : List Char :=
  ['\\', 'u', '\x7b'] ++ Nat.toDigits 16 c.toNat ++ ['\x7d']

/-- How a character is written between the quotes. -/
def quotedChar (c : Char) : List Char :=
  if c = doubleQuote then ['\\', doubleQuote]
  else if c = '\\' then ['\\', '\\']
  else if c = '\x00' then ['\\', '0']
  else if c = '\t' then ['\\', 't']
  else if c = '\n' then ['\\', 'n']
  else if c = '\r' then ['\\', 'r']
  else if isHidden c then numbered c
  else [c]

/-- The text between double quotes, every character as `quotedChar` writes it. -/
def quoted (text : List Char) : List Char :=
  [doubleQuote] ++ text.flatMap quotedChar ++ [doubleQuote]

end DreamLexer.Text
