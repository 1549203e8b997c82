import DreamLexer.Source.Position
import DreamLexer.Text.Decimal

/-!
# Linemarkers

A preprocessor joins files and marks each seam by a line such as `# 42 "code/mob.dm" 2`: the line
after it is line 42 of `code/mob.dm`. Numbers at the end are flags.
-/

namespace DreamLexer

/-- Where the line after the marker comes from. -/
structure Linemarker where
  line : UInt32
  unit : String
  flags : List UInt32
deriving DecidableEq

namespace Linemarker

/-- The blanks of a marker. -/
def isGap (c : Char) : Bool := c == ' ' || c == '\t'

/-- The double quote. -/
def quote : Char := '\x22'

/-- The number that the digits write, if there is a digit and a counter can hold the number. -/
def number? (digits : List Char) : Option UInt32 :=
  if digits.isEmpty || counterMax < Text.decimal digits then none
  else some (UInt32.ofNat (Text.decimal digits))

/-- Reads the flags behind the unit's name, each after a gap, up to the end of the line. A carriage
return may stand at the very end. -/
def flags? (text : List Char) : Option (List UInt32) :=
  match text with
  | [] => some []
  | c :: rest =>
    if isGap c then
      let word := rest.dropWhile isGap
      if word = [] ∨ word = ['\r'] then some []
      else
        match number? (Text.leadingDigits word) with
        | none => none
        | some flag => (flags? (Text.behindDigits word)).map (flag :: ·)
    else if c = '\r' ∧ rest = [] then some []
    else none
termination_by text.length
decreasing_by
  have passed : word.length ≤ rest.length := Text.length_dropWhile_le isGap rest
  have taken : (Text.behindDigits word).length ≤ word.length := Text.length_dropWhile_le _ word
  show (Text.behindDigits word).length < (c :: rest).length
  simp only [List.length_cons]
  omega

/-- Reads what follows the line number: a gap, the unit's name in quotes and the flags. -/
def unitAndFlags? (text : List Char) : Option (String × List UInt32) :=
  match text, text.dropWhile isGap with
  | c :: _, opening :: named =>
    if isGap c ∧ opening = quote then
      match named.takeWhile (· != quote), named.dropWhile (· != quote) with
      | first :: name, _ :: behind => do
        let flags ← flags? behind
        some (String.ofList (first :: name), flags)
      | _, _ => none
    else none
  | _, _ => none

/-- Reads a line, given without its line feed, as a marker. -/
def parse? (line : List Char) : Option Linemarker :=
  match line with
  | [] => none
  | hash :: text =>
    if hash = '#' then do
      let numbered := text.dropWhile isGap
      let number ← number? (Text.leadingDigits numbered)
      let (unit, flags) ← unitAndFlags? (Text.behindDigits numbered)
      some ⟨number, unit, flags⟩
    else none

end Linemarker

end DreamLexer
