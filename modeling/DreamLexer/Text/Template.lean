/-!
# Message templates

A template holds numbered places: a number between braces. Filling it in puts one argument after
the other, each into the whole text so far, so that a place which an earlier argument brings along
is filled by a later one.
-/

namespace DreamLexer.Text

/-- Every occurrence of the pattern replaced, from left to right and without overlap. -/
def replaceAll (pattern replacement : List Char) : List Char → List Char
  | [] => []
  | c :: rest =>
    if pattern.isPrefixOf (c :: rest) then
      replacement ++ replaceAll pattern replacement (rest.drop (pattern.length - 1))
    else
      c :: replaceAll pattern replacement rest
termination_by text => text.length
decreasing_by
  · simp only [List.length_drop, List.length_cons]; omega
  · simp

/-- The place of the argument with this number. -/
def placeholder (number : Nat) : List Char :=
  ['\x7b'] ++ Nat.toDigits 10 number ++ ['\x7d']

/-- Fills in the arguments whose first has the given number. -/
def fillFrom (number : Nat) : List (List Char) → List Char → List Char
  | [], text => text
  | argument :: others, text =>
    fillFrom (number + 1) others (replaceAll (placeholder number) argument text)

/-- The template with its places filled in by the arguments, which are numbered from zero. -/
def fill (template : List Char) (arguments : List (List Char)) : List Char :=
  fillFrom 0 arguments template

end DreamLexer.Text
