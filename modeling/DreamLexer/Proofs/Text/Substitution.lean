import DreamLexer.Lexer.Fault
import DreamLexer.Proofs.Text.Delimited
import DreamLexer.Proofs.Text.Digits
import DreamLexer.Proofs.Text.Template
import Mathlib.Data.List.Basic

/-!
# Filling in is substitution

A template is a list of parts, texts and places. Its arguments are filled in one after the other,
each into the whole text so far. If no argument opens a brace, this is the same as to fill in all of
them at once, and a single argument stands in the message as it is, whatever its characters:
`fill_template`.
-/

namespace DreamLexer

namespace Text

/-- A part of a template. -/
inductive TemplatePart where
  | text (chars : List Char)
  | place (number : Nat)

namespace TemplatePart

/-- The part as it stands in the template. -/
def raw : TemplatePart → List Char
  | .text chars => chars
  | .place number => placeholder number

/-- Whether the part is a place or a text in which no brace is opened. -/
def Plain : TemplatePart → Prop
  | .text chars => '\x7b' ∉ chars
  | .place _ => True

/-- The part with the argument in the place of that number. -/
def settle (number : Nat) (argument : List Char) : TemplatePart → TemplatePart
  | .text chars => .text chars
  | .place other => if other = number then .text argument else .place other

/-- What the part says when all arguments, of which the first has the given number, are put into
their places at once. A place without an argument is left as it is. -/
def filledFrom (number : Nat) (arguments : List (List Char)) : TemplatePart → List Char
  | .text chars => chars
  | .place other =>
    if other < number then placeholder other
    else arguments[other - number]?.getD (placeholder other)

/-- What the part says when all arguments are put into their places at once. A place without an
argument is left as it is. -/
def filled (arguments : List (List Char)) : TemplatePart → List Char
  | .text chars => chars
  | .place number => arguments[number]?.getD (placeholder number)

end TemplatePart

/-- The text of a template. -/
def template (parts : List TemplatePart) : List Char := parts.flatMap TemplatePart.raw

@[simp] theorem template_nil : template [] = [] := rfl

@[simp] theorem template_cons (part : TemplatePart) (parts : List TemplatePart) :
    template (part :: parts) = part.raw ++ template parts := rfl

section Places

variable {number other : Nat} {argument rest : List Char}

theorem brace_not_mem_digits {c : Char} (brace : c = '\x7b' ∨ c = '\x7d') (number : Nat) :
    c ∉ Nat.toDigits 10 number := by
  intro member
  have digit := Nat.isDigit_of_mem_toDigits (by decide) (by decide) member
  rcases brace with rfl | rfl <;> revert digit <;> decide

/-- A place is not found where another one stands, also if the digits of one start the other's. -/
theorem not_placeholder_prefix (different : number ≠ other) :
    ¬ placeholder number <+: placeholder other ++ rest := by
  intro starts
  obtain ⟨behind, same⟩ := starts
  have split : Nat.toDigits 10 number ++ '\x7d' :: behind =
      Nat.toDigits 10 other ++ '\x7d' :: rest := by
    simpa [placeholder] using same
  have digits := append_mark_inj (brace_not_mem_digits (.inr rfl) number)
    (brace_not_mem_digits (.inr rfl) other) split
  exact different (toDigits_inj (by decide) (by decide) digits.1)

/-- Looking for a place passes over another one. -/
theorem replaceAll_placeholder_of_ne (different : number ≠ other) :
    replaceAll (placeholder number) argument (placeholder other ++ rest) =
      placeholder other ++ replaceAll (placeholder number) argument rest := by
  have unlike : (placeholder number).isPrefixOf (placeholder other ++ rest) = false := by
    rw [← Bool.not_eq_true, List.isPrefixOf_iff_prefix]
    exact not_placeholder_prefix different
  have absent : '\x7b' ∉ Nat.toDigits 10 other ++ ['\x7d'] := by
    simpa using brace_not_mem_digits (.inl rfl) other
  have inside : replaceAll (placeholder number) argument
      ((Nat.toDigits 10 other ++ ['\x7d']) ++ rest) =
        (Nat.toDigits 10 other ++ ['\x7d']) ++ replaceAll (placeholder number) argument rest :=
    replaceAll_append absent
  have whole : placeholder other ++ rest =
      '\x7b' :: ((Nat.toDigits 10 other ++ ['\x7d']) ++ rest) := by simp [placeholder]
  rw [whole, replaceAll, ← whole, unlike, if_neg Bool.false_ne_true, inside]
  simp [placeholder]

theorem replaceAll_placeholder_self :
    replaceAll (placeholder number) argument (placeholder number ++ rest) =
      argument ++ replaceAll (placeholder number) argument rest :=
  replaceAll_pattern

end Places

section Parts

variable {number : Nat} {argument : List Char} {parts : List TemplatePart}

/-- An argument is put into all its places and leaves the other parts as they are. -/
theorem replaceAll_template (plain : ∀ part ∈ parts, part.Plain) :
    replaceAll (placeholder number) argument (template parts) =
      template (parts.map (TemplatePart.settle number argument)) := by
  induction parts with
  | nil => rw [template_nil, replaceAll, List.map_nil, template_nil]
  | cons part parts ih =>
    obtain ⟨here, later⟩ := List.forall_mem_cons.1 plain
    rw [List.map_cons, template_cons, template_cons, ← ih later]
    cases part with
    | text chars => exact replaceAll_append here
    | place other =>
      by_cases same : other = number
      · subst same
        rw [TemplatePart.settle, if_pos rfl]
        exact replaceAll_placeholder_self
      · rw [TemplatePart.settle, if_neg same]
        exact replaceAll_placeholder_of_ne (Ne.symm same)

theorem filledFrom_settle (number : Nat) (argument : List Char) (arguments : List (List Char))
    (part : TemplatePart) :
    (part.settle number argument).filledFrom (number + 1) arguments =
      part.filledFrom number (argument :: arguments) := by
  cases part with
  | text chars => rfl
  | place other =>
    rw [TemplatePart.settle]
    by_cases same : other = number
    · subst same
      simp [TemplatePart.filledFrom]
    · rw [if_neg same, TemplatePart.filledFrom, TemplatePart.filledFrom]
      by_cases below : other < number
      · rw [if_pos below, if_pos (by omega)]
      · have next : other - number = other - (number + 1) + 1 := by omega
        rw [if_neg below, if_neg (by omega), next, List.getElem?_cons_succ]

/-- What was put in opens no brace, so a later argument finds its own places only. -/
theorem fillFrom_template {arguments : List (List Char)} (plain : ∀ part ∈ parts, part.Plain)
    (closed : ∀ argument ∈ arguments, '\x7b' ∉ argument) :
    fillFrom number arguments (template parts) =
      parts.flatMap (TemplatePart.filledFrom number arguments) := by
  induction arguments generalizing number parts with
  | nil =>
    rw [fillFrom, template]
    refine List.flatMap_congr fun part _ => ?_
    cases part <;> simp [TemplatePart.raw, TemplatePart.filledFrom]
  | cons argument arguments ih =>
    obtain ⟨here, later⟩ := List.forall_mem_cons.1 closed
    have settled : ∀ part ∈ parts.map (TemplatePart.settle number argument), part.Plain := by
      intro part member
      obtain ⟨before, held, rfl⟩ := List.mem_map.1 member
      cases before with
      | text chars => exact plain (.text chars) held
      | place other =>
        rw [TemplatePart.settle]
        split
        · exact here
        · trivial
    rw [fillFrom, replaceAll_template plain, ih settled later, List.flatMap_map]
    exact List.flatMap_congr fun part _ => filledFrom_settle number argument arguments part

theorem filledFrom_zero (arguments : List (List Char)) (part : TemplatePart) :
    part.filledFrom 0 arguments = part.filled arguments := by
  cases part <;> simp [TemplatePart.filledFrom, TemplatePart.filled]

theorem raw_settle_zero (argument : List Char) (part : TemplatePart) :
    (part.settle 0 argument).raw = part.filled [argument] := by
  cases part with
  | text chars => rfl
  | place number => cases number <;> rfl

/-- A text in which no brace is opened has no places. -/
theorem fillFrom_of_not_mem {text : List Char} (absent : '\x7b' ∉ text)
    (arguments : List (List Char)) : fillFrom number arguments text = text := by
  induction arguments generalizing number with
  | nil => rfl
  | cons argument arguments ih =>
    have kept : replaceAll (placeholder number) argument text = text :=
      replaceAll_of_not_mem absent
    rw [fillFrom, kept, ih]

end Parts

end Text

/-- What an error of the kind says of the text that it quotes, if it quotes one. -/
def ErrorKind.wording (quoted : String) : ErrorKind → String
  | .badIndentation => "Spaces are not allowed for indentation. Please use tabs."
  | .unterminatedString => "Reached end of input while scanning a string literal."
  | .unterminatedComment => "Reached end of input while scanning a block comment; '*/' expected."
  | .malformedDirective => "Malformed preprocessor directive '" ++ quoted ++ "'."
  | .unexpectedCharacter => "Unexpected character '" ++ quoted ++ "'."

namespace Message

/-- A message without places is its template. -/
theorem format_of_not_mem {message : Message} (absent : '\x7b' ∉ message.template.toList)
    (arguments : List String) : message.format arguments = message.template := by
  rw [format, Text.fill, Text.fillFrom_of_not_mem absent, String.ofList_toList]

end Message

theorem LexError.text_ofKind (kind : ErrorKind) (argument : String) (position : Position) :
    (LexError.ofKind kind [argument] position).text = kind.wording argument := by
  cases kind with
  | badIndentation => exact Message.format_of_not_mem (by decide) [argument]
  | unterminatedString => exact Message.format_of_not_mem (by decide) [argument]
  | unterminatedComment => exact Message.format_of_not_mem (by decide) [argument]
  | malformedDirective => exact Message.format_malformedDirective argument
  | unexpectedCharacter => exact Message.format_unexpectedCharacter argument

theorem Fault.text_error (fault : Fault) (start stop : Position) :
    (fault.error start stop).text = fault.kind.wording (fault.arguments.headD "") := by
  cases fault with
  | spaceInIndentation => exact Message.format_nil _
  | openString => exact Message.format_nil _
  | openComment => exact Message.format_nil _
  | directive line => exact LexError.text_ofKind .malformedDirective _ _
  | character c => exact LexError.text_ofKind .unexpectedCharacter _ _

namespace Text

/-- Filling in arguments that open no brace puts each of them into its places at once. A single
argument may be any text: it is put into its places as it is, and so errors and the warning about a
unit without tokens quote what they are about. -/
theorem fill_template :
    (∀ parts arguments, (∀ part ∈ parts, TemplatePart.Plain part) →
        (∀ argument ∈ arguments, '\x7b' ∉ argument) →
        fill (template parts) arguments = parts.flatMap (TemplatePart.filled arguments)) ∧
      (∀ parts argument, (∀ part ∈ parts, TemplatePart.Plain part) →
        fill (template parts) [argument] = parts.flatMap (TemplatePart.filled [argument])) ∧
      (∀ kind argument position,
        (LexError.ofKind kind [argument] position).text = kind.wording argument) ∧
      (∀ fault start stop,
        (Fault.error fault start stop).text = fault.kind.wording (fault.arguments.headD "")) ∧
      (∀ unit position, (Diagnostic.ofMessage .unitHasNoTokens [unit] position).text =
        "Unit '" ++ unit ++ "' produced no tokens.") := by
  refine ⟨?_, ?_, LexError.text_ofKind, Fault.text_error, ?_⟩
  · intro parts arguments plain closed
    rw [fill, fillFrom_template plain closed]
    exact List.flatMap_congr fun part _ => filledFrom_zero arguments part
  · intro parts argument plain
    rw [fill, fillFrom, fillFrom, replaceAll_template plain, template, List.flatMap_map]
    exact List.flatMap_congr fun part _ => raw_settle_zero argument part
  · intro unit position
    exact Message.format_unitHasNoTokens unit

/-- Places of which one's digits start the other's, and an argument that looks like places. -/
theorem fill_template_of_braces :
    (∀ part ∈ [.place 10, .place 1, .text [' '], .place 0, .place 0], TemplatePart.Plain part) ∧
      (∀ argument ∈ [['a'], ['b', '\x7d']], '\x7b' ∉ argument) ∧
      fill (template [.place 10, .place 1, .text [' '], .place 0, .place 0])
        [['a'], ['b', '\x7d']] = "\x7b10\x7db\x7d aa".toList ∧
      fill (template [.place 10, .place 1, .text [' '], .place 0, .place 0])
        ["\x7b0\x7d\x7b1\x7d".toList] =
          "\x7b10\x7d\x7b1\x7d \x7b0\x7d\x7b1\x7d\x7b0\x7d\x7b1\x7d".toList := by
  have plain : ∀ part ∈ [.place 10, .place 1, .text [' '], .place 0, .place 0],
      TemplatePart.Plain part := by simp [TemplatePart.Plain]
  have closed : ∀ argument ∈ [['a'], ['b', '\x7d']], '\x7b' ∉ argument := by decide
  obtain ⟨many, single, -⟩ := fill_template
  refine ⟨plain, closed, ?_, ?_⟩
  · rw [many _ _ plain closed]
    decide
  · rw [single _ _ plain]
    decide

end Text

end DreamLexer
