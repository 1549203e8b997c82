import DreamLexer.Json.Problem

/-!
# JSON strings

A string is read up to its closing quote. An escape is a letter or four hexadecimal digits behind a
backslash; a character beyond the first plane takes two escapes that only count together.
-/

namespace DreamLexer.Json

/-- The value of a hexadecimal digit. -/
def hexDigit? (c : Char) : Option Nat :=
  if '0' ≤ c ∧ c ≤ '9' then some (c.toNat - '0'.toNat)
  else if 'a' ≤ c ∧ c ≤ 'f' then some (c.toNat - 'a'.toNat + 10)
  else if 'A' ≤ c ∧ c ≤ 'F' then some (c.toNat - 'A'.toNat + 10)
  else none

/-- The value of hexadecimal digits. -/
def hexValue? (digits : List Char) : Option Nat :=
  digits.foldlM (fun n c => (hexDigit? c).map (16 * n + ·)) 0

/-- Reads four hexadecimal digits. The text ends too soon if it has less than four bytes. -/
def readUnit (text : List Char) : Except Problem (Nat × List Char) :=
  match hexValue? (text.take 4) with
  | some value =>
    if (text.take 4).length = 4 then .ok (value, text.drop 4) else .error .endsEarly
  | none => if (String.ofList text).utf8ByteSize < 4 then .error .endsEarly else .error .malformed

/-- Reads a character that has to stand here. -/
def expect (wanted : Char) (text : List Char) : Except Problem (List Char) :=
  match text with
  | [] => .error .endsEarly
  | c :: rest => if c = wanted then .ok rest else .error .malformed

/-- Whether a unit is the first of two. -/
def isFirstOfTwo (value : Nat) : Bool := 0xD800 ≤ value && value ≤ 0xDBFF

/-- Whether a unit is the second of two. -/
def isSecondOfTwo (value : Nat) : Bool := 0xDC00 ≤ value && value ≤ 0xDFFF

/-- Reads the escape of a character by number, behind its letter. -/
def readNumbered (text : List Char) : Except Problem (Char × List Char) := do
  let (first, rest) ← readUnit text
  if isSecondOfTwo first then .error .malformed
  else if isFirstOfTwo first then do
    let rest ← expect '\\' rest
    let rest ← expect 'u' rest
    let (second, rest) ← readUnit rest
    if isSecondOfTwo second then
      .ok (Char.ofNat (0x10000 + (first - 0xD800) * 0x400 + (second - 0xDC00)), rest)
    else .error .malformed
  else .ok (Char.ofNat first, rest)

/-- The character that a letter behind a backslash stands for. -/
def lettered? (letter : Char) : Option Char :=
  if letter = '\x22' ∨ letter = '\\' ∨ letter = '/' then some letter
  else if letter = 'b' then some '\x08'
  else if letter = 'f' then some '\x0c'
  else if letter = 'n' then some '\n'
  else if letter = 'r' then some '\r'
  else if letter = 't' then some '\t'
  else none

/-- Reads an escape behind its backslash. -/
def readEscape (text : List Char) : Except Problem (Char × List Char) :=
  match text with
  | [] => .error .endsEarly
  | letter :: rest =>
    if letter = 'u' then readNumbered rest
    else
      match lettered? letter with
      | some c => .ok (c, rest)
      | none => .error .malformed

theorem length_readUnit_le {text rest : List Char} {value : Nat}
    (h : readUnit text = .ok (value, rest)) : rest.length ≤ text.length := by
  unfold readUnit at h
  split at h
  next =>
    split at h
    · obtain ⟨-, rfl⟩ := by simpa using h
      simp
    · simp at h
  next => split at h <;> simp at h

theorem length_expect_le {wanted : Char} {text rest : List Char}
    (h : expect wanted text = .ok rest) : rest.length ≤ text.length := by
  unfold expect at h
  split at h
  · simp at h
  next =>
    split at h
    · obtain rfl := by simpa using h
      simp
    · simp at h

theorem length_readNumbered_le {text rest : List Char} {c : Char}
    (h : readNumbered text = .ok (c, rest)) : rest.length ≤ text.length := by
  unfold readNumbered at h
  cases first : readUnit text with
  | error => simp [first, bind, Except.bind] at h
  | ok unit =>
    obtain ⟨value, behind⟩ := unit
    have le := length_readUnit_le first
    simp only [first, bind, Except.bind] at h
    split at h
    · simp at h
    split at h
    next =>
      cases slash : expect '\\' behind with
      | error => simp [slash] at h
      | ok behindSlash =>
        cases letter : expect 'u' behindSlash with
        | error => simp [slash, letter] at h
        | ok behindLetter =>
          cases second : readUnit behindLetter with
          | error => simp [slash, letter, second] at h
          | ok unit =>
            simp only [slash, letter, second] at h
            split at h
            next =>
              obtain ⟨-, rfl⟩ := by simpa using h
              exact Nat.le_trans (length_readUnit_le second)
                (Nat.le_trans (length_expect_le letter)
                  (Nat.le_trans (length_expect_le slash) le))
            next => simp at h
    next =>
      obtain ⟨-, rfl⟩ := by simpa using h
      exact le

theorem length_readEscape_le {text rest : List Char} {c : Char}
    (h : readEscape text = .ok (c, rest)) : rest.length ≤ text.length := by
  unfold readEscape at h
  split at h
  · simp at h
  next =>
    split at h
    next => exact Nat.le_succ_of_le (length_readNumbered_le h)
    next =>
      split at h
      next =>
        obtain ⟨-, rfl⟩ := by simpa using h
        simp
      next => simp at h

/-- Reads on in a string up to its closing quote; `before` holds what was read, the last character
first. A control character has to be escaped. -/
def readStringFrom (before : List Char) (text : List Char) :
    Except Problem (List Char × List Char) :=
  match text with
  | [] => .error .endsEarly
  | c :: rest =>
    if c = '\x22' then .ok (before.reverse, rest)
    else if c = '\\' then
      match _h : readEscape rest with
      | .error problem => .error problem
      | .ok (escaped, behind) => readStringFrom (escaped :: before) behind
    else if c.toNat < 0x20 then .error .malformed
    else readStringFrom (c :: before) rest
termination_by text.length
decreasing_by
  · exact Nat.lt_succ_of_le (length_readEscape_le _h)
  · simp

/-- Reads a string behind its opening quote. -/
def readString (text : List Char) : Except Problem (List Char × List Char) :=
  readStringFrom [] text

theorem length_readStringFrom_le {before text content rest : List Char}
    (h : readStringFrom before text = .ok (content, rest)) : rest.length ≤ text.length := by
  fun_induction readStringFrom before text with
  | case1 => simp at h
  | case2 =>
    obtain ⟨-, rfl⟩ := by simpa using h
    simp
  | case3 => simp at h
  | case4 before rest' escaped behind he _ ih =>
    exact Nat.le_succ_of_le (Nat.le_trans (ih h) (length_readEscape_le he))
  | case5 => simp at h
  | case6 before c rest' _ _ _ ih => exact Nat.le_succ_of_le (ih h)

end DreamLexer.Json
