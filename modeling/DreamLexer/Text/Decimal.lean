/-!
# Decimal digits

The value that decimal digits write, and the numbers that fit a counter.
-/

namespace DreamLexer.Text

/-- The value of a decimal digit. -/
def digitValue (c : Char) : Nat := c.toNat - '0'.toNat

/-- The value of decimal digits. -/
def decimal (digits : List Char) : Nat :=
  digits.foldl (fun n c => 10 * n + digitValue c) 0

/-- The decimal digits a text starts with. -/
def leadingDigits (text : List Char) : List Char := text.takeWhile Char.isDigit

/-- The text behind the decimal digits it starts with. -/
def behindDigits (text : List Char) : List Char := text.dropWhile Char.isDigit

theorem leadingDigits_append (text : List Char) :
    leadingDigits text ++ behindDigits text = text :=
  List.takeWhile_append_dropWhile

theorem length_dropWhile_le (p : Char → Bool) (text : List Char) :
    (text.dropWhile p).length ≤ text.length :=
  (List.dropWhile_sublist p).length_le

end DreamLexer.Text
