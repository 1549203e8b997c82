/-!
# Blank characters

The characters of the Unicode property `White_Space`, and a text without the blanks at its end.
-/

namespace DreamLexer.Text

/-- The characters of the property `White_Space`. -/
def blanks : List Char :=
  ['\t', '\n', '\x0b', '\x0c', '\r', ' ', '\u0085', '\u00a0', '\u1680', '\u2000', '\u2001',
   '\u2002', '\u2003', '\u2004', '\u2005', '\u2006', '\u2007', '\u2008', '\u2009', '\u200a',
   '\u2028', '\u2029', '\u202f', '\u205f', '\u3000']

/-- Whether a character has the property `White_Space`. -/
def isBlank (c : Char) : Bool := blanks.contains c

/-- The text up to its last character that is not blank. -/
def trimEnd (text : List Char) : List Char :=
  (text.reverse.dropWhile isBlank).reverse

/-- What is left has lost blanks at its end, and has no blank there any more. -/
theorem trimEnd_eq_iff {text left : List Char} :
    trimEnd text = left ↔
      ∃ dropped, text = left ++ dropped ∧ (∀ c ∈ dropped, isBlank c) ∧
        ∀ c ∈ left.getLast?, isBlank c = false := by
  constructor
  · rintro rfl
    refine ⟨(text.reverse.takeWhile isBlank).reverse, ?_, ?_, ?_⟩
    · rw [trimEnd, ← List.reverse_append, List.takeWhile_append_dropWhile, List.reverse_reverse]
    · intro c member
      exact List.all_eq_true.1 List.all_takeWhile c (List.mem_reverse.1 member)
    · intro c last
      rw [trimEnd, List.getLast?_reverse] at last
      have stops := List.head?_dropWhile_not isBlank text.reverse
      rw [Option.mem_def.1 last] at stops
      exact stops
  · rintro ⟨dropped, rfl, blank, last⟩
    rw [trimEnd, List.reverse_append, List.dropWhile_append_of_pos (by simpa using blank)]
    cases reversed : left.reverse with
    | nil => simpa using reversed.symm
    | cons c others =>
      have solid : isBlank c = false := last c (by rw [← List.head?_reverse, reversed]; rfl)
      rw [List.dropWhile_cons_of_neg (by simp [solid]), ← reversed, List.reverse_reverse]

end DreamLexer.Text
