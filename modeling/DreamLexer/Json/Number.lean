import DreamLexer.Json.Problem
import DreamLexer.Text.Decimal

/-!
# JSON numbers

A number literal is read part by part. It is accepted if the number can be held: its leading digits
are gathered in 64 bits, and what they stand for, times the power of ten that is left, has to be
within the range of a double.
-/

namespace DreamLexer.Json

/-- The parts of a number literal. -/
structure NumberLiteral where
  /-- The literal as it is written. -/
  raw : List Char
  /-- The digits before the point. -/
  whole : List Char
  /-- The digits behind the point. -/
  fraction : List Char
  /-- The power of ten that the literal names. -/
  exponent : Int

namespace NumberLiteral

/-- Reads one digit or more. -/
def digits (text : List Char) : Except Problem (List Char × List Char) :=
  if (Text.leadingDigits text).isEmpty then
    .error (if text.isEmpty then .endsEarly else .malformed)
  else .ok (Text.leadingDigits text, Text.behindDigits text)

/-- Reads the digits before the point. A zero in front stands alone. -/
def wholeDigits (text : List Char) : Except Problem (List Char × List Char) :=
  match digits text with
  | .error problem => .error problem
  | .ok (taken, rest) =>
    if taken.head? = some '0' ∧ taken.length ≠ 1 then .error .malformed else .ok (taken, rest)

/-- Reads the point and the digits behind it, if there is a point. -/
def fractionDigits (text : List Char) : Except Problem (List Char × List Char) :=
  match text with
  | '.' :: behind => digits behind
  | _ => .ok ([], text)

/-- Splits off a sign, if one of the given signs stands here. -/
def splitSign (signs : List Char) (text : List Char) : List Char × List Char :=
  match text with
  | [] => ([], [])
  | c :: behind => if signs.contains c then ([c], behind) else ([], text)

/-- Reads an exponent, if there is one: what is written, its value and the text behind it. -/
def exponentPart (text : List Char) : Except Problem (List Char × Int × List Char) :=
  match text with
  | [] => .ok ([], 0, [])
  | mark :: behind =>
    if mark = 'e' ∨ mark = 'E' then
      match digits (splitSign ['+', '-'] behind).2 with
      | .error problem => .error problem
      | .ok (taken, rest) =>
        let sign := (splitSign ['+', '-'] behind).1
        let size : Int := Text.decimal taken
        .ok (mark :: (sign ++ taken), if sign = ['-'] then -size else size, rest)
    else .ok ([], 0, text)

/-- Reads a number literal. -/
def parts (text : List Char) : Except Problem (NumberLiteral × List Char) :=
  match wholeDigits (splitSign ['-'] text).2 with
  | .error problem => .error problem
  | .ok (whole, behindWhole) =>
    match fractionDigits behindWhole with
    | .error problem => .error problem
    | .ok (fraction, behindFraction) =>
      match exponentPart behindFraction with
      | .error problem => .error problem
      | .ok (mark, exponent, rest) =>
        let sign := (splitSign ['-'] text).1
        let point := if fraction = [] then [] else '.' :: fraction
        .ok (⟨sign ++ whole ++ point ++ mark, whole, fraction, exponent⟩, rest)

theorem digits_append {text taken rest : List Char} (h : digits text = .ok (taken, rest)) :
    taken ++ rest = text ∧ taken ≠ [] := by
  unfold digits at h
  split at h
  · simp at h
  next some_digit =>
    obtain ⟨rfl, rfl⟩ := by simpa using h
    exact ⟨Text.leadingDigits_append text, by simpa using some_digit⟩

theorem wholeDigits_append {text taken rest : List Char}
    (h : wholeDigits text = .ok (taken, rest)) : taken ++ rest = text ∧ taken ≠ [] := by
  unfold wholeDigits at h
  split at h
  · simp at h
  next hd =>
    split at h
    · simp at h
    · obtain ⟨rfl, rfl⟩ := by simpa using h
      exact digits_append hd

theorem fractionDigits_append {text taken rest : List Char}
    (h : fractionDigits text = .ok (taken, rest)) :
    (if taken = [] then [] else '.' :: taken) ++ rest = text := by
  unfold fractionDigits at h
  split at h
  next =>
    obtain ⟨append, ne_nil⟩ := digits_append h
    simp [ne_nil, append]
  next =>
    obtain ⟨rfl, rfl⟩ := by simpa using h
    simp

theorem splitSign_append (signs text : List Char) :
    (splitSign signs text).1 ++ (splitSign signs text).2 = text := by
  unfold splitSign
  split
  · rfl
  · split <;> simp

theorem exponentPart_append {text mark rest : List Char} {exponent : Int}
    (h : exponentPart text = .ok (mark, exponent, rest)) : mark ++ rest = text := by
  unfold exponentPart at h
  split at h
  next =>
    obtain ⟨rfl, -, rfl⟩ := by simpa using h
    rfl
  next first behind =>
    split at h
    next =>
      split at h
      · simp at h
      next taken rest' hd =>
        obtain ⟨rfl, -, rfl⟩ := by simpa using h
        simp [(digits_append hd).1, splitSign_append]
    next =>
      obtain ⟨rfl, -, rfl⟩ := by simpa using h
      rfl

/-- A literal is not empty, and with the text behind it makes up the text. -/
theorem parts_append {text rest : List Char} {literal : NumberLiteral}
    (h : parts text = .ok (literal, rest)) : literal.raw ++ rest = text ∧ literal.raw ≠ [] := by
  unfold parts at h
  split at h
  · simp at h
  next whole behindWhole hw =>
    split at h
    · simp at h
    next fraction behindFraction hf =>
      split at h
      · simp at h
      next mark exponent rest' he =>
        obtain ⟨rfl, rfl⟩ := by simpa using h
        obtain ⟨append, ne_nil⟩ := wholeDigits_append hw
        refine ⟨?_, by simp [ne_nil]⟩
        simp only [List.append_assoc]
        rw [exponentPart_append he, fractionDigits_append hf, append, splitSign_append]

/-- Gathers digits behind a significand as long as it stays below 2^64, and gives the digits that
are left. -/
def gather (significand : Nat) : List Char → Nat × List Char
  | [] => (significand, [])
  | digit :: others =>
    let next := 10 * significand + Text.digitValue digit
    if next < UInt64.size then gather next others else (significand, digit :: others)

/-- A natural number rounded to 53 binary places, a half to the even neighbour. -/
def roundToDouble (n : Nat) : Nat :=
  let unit := Nat.pow 2 (n.log2 + 1 - 53)
  let places := n / unit
  let remainder := n % unit
  if unit < 2 * remainder ∨ (2 * remainder = unit ∧ places % 2 = 1) then (places + 1) * unit
  else places * unit

/-- Whether a significand times a power of ten is beyond all doubles: both are rounded, and their
product would be rounded to a number above the largest one. -/
def beyondDoubles (significand : Nat) (exponent : Int) : Bool :=
  if exponent < 0 then false
  else if exponent ≤ 308 then
    Nat.pow 2 1024 - Nat.pow 2 970 ≤
      roundToDouble significand * roundToDouble (Nat.pow 10 exponent.toNat)
  else significand ≠ 0

/-- Whether the literal can be held. Digits before the point that are not gathered count as powers
of ten; those behind it are dropped. -/
def inRange (n : NumberLiteral) : Bool :=
  let (front, uncounted) := gather 0 n.whole
  let (significand, dropped) := gather front n.fraction
  let gathered := n.fraction.length - dropped.length
  !beyondDoubles significand (n.exponent + uncounted.length - gathered)

end NumberLiteral

/-- Reads a number literal that can be held, as it is written. -/
def readNumber (text : List Char) : Except Problem (List Char × List Char) :=
  match NumberLiteral.parts text with
  | .error problem => .error problem
  | .ok (literal, rest) => if literal.inRange then .ok (literal.raw, rest) else .error .malformed

/-- A literal is not empty, and with the text behind it makes up the text. -/
theorem readNumber_append {text raw rest : List Char} (h : readNumber text = .ok (raw, rest)) :
    raw ++ rest = text ∧ raw ≠ [] := by
  unfold readNumber at h
  split at h
  · simp at h
  next hp =>
    split at h
    · obtain ⟨rfl, rfl⟩ := by simpa using h
      exact NumberLiteral.parts_append hp
    · simp at h

/-- The value of a literal that is made of digits only. -/
def natural? (literal : List Char) : Option Nat :=
  if literal.all Char.isDigit then some (Text.decimal literal) else none

end DreamLexer.Json
