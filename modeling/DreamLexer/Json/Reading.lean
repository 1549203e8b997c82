import DreamLexer.Json.Escape
import DreamLexer.Json.Lexeme
import DreamLexer.Json.Number

/-!
# Reading JSON lexemes

A text is taken apart into lexemes. Where no lexeme can be read the list ends with the problem,
since nothing behind it matters.
-/

namespace DreamLexer.Json

/-- A piece of a text: a lexeme, or the problem that ends the text. Whether the problem is in a
string matters where only a string may stand. -/
inductive Item where
  | lexeme (lexeme : Lexeme)
  | brokenString (problem : Problem)
  | broken (problem : Problem)
deriving DecidableEq

/-- The blanks of a JSON text. -/
def isJsonBlank (c : Char) : Bool := c == ' ' || c == '\t' || c == '\n' || c == '\r'

/-- The brackets and marks. -/
def marks : List (Char × Lexeme) :=
  [('[', .openArray), (']', .closeArray), ('\x7b', .openObject), ('\x7d', .closeObject),
   (',', .comma), (':', .colon)]

/-- The words. -/
def words : List (Char × Lexeme) := [('t', .bool true), ('f', .bool false), ('n', .null)]

/-- Reads the letters of a word. -/
def spell (letters : List Char) (text : List Char) : Except Problem (List Char) :=
  match letters, text with
  | [], _ => .ok text
  | _ :: _, [] => .error .endsEarly
  | letter :: letters, c :: rest => if c = letter then spell letters rest else .error .malformed

/-- Reads the lexeme that the text starts with. -/
def readLexeme (c : Char) (rest : List Char) : Except Item (Lexeme × List Char) :=
  match marks.lookup c with
  | some mark => .ok (mark, rest)
  | none =>
    match words.lookup c with
    | some word =>
      match spell word.text.tail rest with
      | .ok behind => .ok (word, behind)
      | .error problem => .error (.broken problem)
    | none =>
      if c = '\x22' then
        match readString rest with
        | .ok (content, behind) => .ok (.string (String.ofList content), behind)
        | .error problem => .error (.brokenString problem)
      else if c.isDigit ∨ c = '-' then
        match readNumber (c :: rest) with
        | .ok (literal, behind) => .ok (.number (String.ofList literal), behind)
        | .error problem => .error (.broken problem)
      else .error (.broken .malformed)

theorem length_spell_le {letters text rest : List Char} (h : spell letters text = .ok rest) :
    rest.length ≤ text.length := by
  fun_induction spell letters text with
  | case1 =>
    obtain rfl := by simpa using h
    exact Nat.le_refl _
  | case2 => simp at h
  | case3 _ _ _ ih => exact Nat.le_succ_of_le (ih h)
  | case4 => simp at h

theorem length_readLexeme_le {c : Char} {rest behind : List Char} {lexeme : Lexeme}
    (h : readLexeme c rest = .ok (lexeme, behind)) : behind.length ≤ rest.length := by
  unfold readLexeme at h
  split at h
  next =>
    obtain ⟨-, rfl⟩ := by simpa using h
    exact Nat.le_refl _
  next =>
    split at h
    next =>
      split at h
      next hs =>
        obtain ⟨-, rfl⟩ := by simpa using h
        exact length_spell_le hs
      next => simp at h
    next =>
      split at h
      next =>
        split at h
        next hs =>
          obtain ⟨-, rfl⟩ := by simpa using h
          exact length_readStringFrom_le hs
        next => simp at h
      next =>
        split at h
        next =>
          split at h
          next hn =>
            obtain ⟨-, rfl⟩ := by simpa using h
            obtain ⟨append, ne_nil⟩ := readNumber_append hn
            have whole := congrArg List.length append
            have := List.length_pos_iff.2 ne_nil
            simp only [List.length_append, List.length_cons] at whole
            omega
          next => simp at h
        next => simp at h

/-- Takes a text apart. -/
def items (text : List Char) : List Item :=
  match text with
  | [] => []
  | c :: rest =>
    if isJsonBlank c then items rest
    else
      match _h : readLexeme c rest with
      | .ok (lexeme, behind) => .lexeme lexeme :: items behind
      | .error problem => [problem]
termination_by text.length
decreasing_by
  · simp
  · exact Nat.lt_succ_of_le (length_readLexeme_le _h)

end DreamLexer.Json
