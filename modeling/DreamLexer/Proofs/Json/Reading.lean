import DreamLexer.Json.Record
import DreamLexer.Proofs.Json.Grammar

/-!
# Texts of the grammar are taken apart

A text that lays out lexemes is taken apart into them (`items_of_laid`), as far as its numbers can
be held; here these are the natural numbers that 32 bits hold. What a reader makes of such a text is
then what it makes of the lexemes: it takes them all (`Reader.Takes`), or it rejects the text on the
way (`Reader.Rejects`).
-/

namespace DreamLexer.Json

/-- The literal is that of a natural number that 32 bits hold. -/
def IsCounter (literal : String) : Prop := ∃ n < UInt32.size, literal = toString n

section Numbers

variable {digits rest : List Char} {n : Nat}

theorem le_foldl_digits (digits : List Char) (start : Nat) :
    start ≤ digits.foldl (fun n c => 10 * n + Text.digitValue c) start := by
  induction digits generalizing start with
  | nil => exact Nat.le_refl _
  | cons digit digits ih =>
    exact Nat.le_trans (by omega) (ih (10 * start + Text.digitValue digit))

/-- All digits are gathered if 64 bits hold the number. -/
theorem gather_eq (digits : List Char) (start : Nat)
    (fits : digits.foldl (fun n c => 10 * n + Text.digitValue c) start < UInt64.size) :
    NumberLiteral.gather start digits =
      (digits.foldl (fun n c => 10 * n + Text.digitValue c) start, []) := by
  induction digits generalizing start with
  | nil => rfl
  | cons digit digits ih =>
    have here : 10 * start + Text.digitValue digit < UInt64.size :=
      Nat.lt_of_le_of_lt (le_foldl_digits digits _) fits
    rw [NumberLiteral.gather, if_pos here, ih _ fits, List.foldl_cons]

theorem roundToDouble_of_lt (small : n < UInt32.size) : NumberLiteral.roundToDouble n = n := by
  have places : n.log2 + 1 - 53 = 0 := by
    by_cases zero : n = 0
    · subst zero
      rfl
    · have below : n.log2 < 53 :=
        (Nat.log2_lt zero).2 (Nat.lt_trans small (by decide))
      omega
  simp [NumberLiteral.roundToDouble, places, Nat.mod_one]

theorem not_beyondDoubles (small : n < UInt32.size) :
    NumberLiteral.beyondDoubles n 0 = false := by
  have one : NumberLiteral.roundToDouble (Nat.pow 10 (Int.toNat 0)) = 1 :=
    roundToDouble_of_lt (by decide)
  have limit : UInt32.size ≤ Nat.pow 2 1024 - Nat.pow 2 970 := by decide +kernel
  simp only [NumberLiteral.beyondDoubles, roundToDouble_of_lt small, one]
  rw [if_neg (by decide), if_pos (by decide), decide_eq_false_iff_not]
  omega

/-- Digits are read up to where no character of a number follows. -/
theorem parts_of_isWhole (is_whole : IsWhole digits)
    (stops : ∀ c ∈ rest.head?, isNumeric c = false) :
    NumberLiteral.parts (digits ++ rest) = .ok (⟨digits, digits, [], 0⟩, rest) := by
  obtain ⟨⟨some_digit, is_digits⟩, zero⟩ := is_whole
  have no_digit : ∀ c ∈ rest.head?, c.isDigit = false := by
    intro c first
    have other := stops c first
    simp only [isNumeric, Bool.or_eq_false_iff] at other
    exact other.1.1.1.1.1
  obtain ⟨leading, behind⟩ : Text.leadingDigits (digits ++ rest) = digits ∧
      Text.behindDigits (digits ++ rest) = rest :=
    Text.takeWhile_dropWhile_of_stops is_digits no_digit
  have no_sign : NumberLiteral.splitSign ['-'] (digits ++ rest) = ([], digits ++ rest) := by
    obtain ⟨c, digits, rfl⟩ := List.exists_cons_of_ne_nil some_digit
    have no_minus : c ≠ '-' := by
      rintro rfl
      cases is_digits '-' List.mem_cons_self
    simp [NumberLiteral.splitSign, no_minus]
  have whole : NumberLiteral.wholeDigits (digits ++ rest) = .ok (digits, rest) := by
    have alone : ¬ (digits.head? = some '0' ∧ digits.length ≠ 1) := by
      rintro ⟨first, long⟩
      rw [zero first] at long
      exact long rfl
    have taken : NumberLiteral.digits (digits ++ rest) = .ok (digits, rest) := by
      rw [NumberLiteral.digits, leading, behind, if_neg (by simp [some_digit])]
    rw [NumberLiteral.wholeDigits, taken]
    exact if_neg alone
  have no_fraction : NumberLiteral.fractionDigits rest = .ok ([], rest) := by
    unfold NumberLiteral.fractionDigits
    split
    next behind => cases stops '.' rfl
    next => rfl
  have no_exponent : NumberLiteral.exponentPart rest = .ok ([], 0, rest) := by
    cases rest with
    | nil => rfl
    | cons c rest =>
      have no_letter : ¬ (c = 'e' ∨ c = 'E') := by
        rintro (rfl | rfl) <;> cases stops _ rfl
      rw [NumberLiteral.exponentPart, if_neg no_letter]
  simp [NumberLiteral.parts, no_sign, whole, no_fraction, no_exponent]

theorem readNumber_of_isWhole (is_whole : IsWhole digits)
    (small : Text.decimal digits < UInt32.size)
    (stops : ∀ c ∈ rest.head?, isNumeric c = false) :
    readNumber (digits ++ rest) = .ok (digits, rest) := by
  have gathered : NumberLiteral.gather 0 digits = (Text.decimal digits, []) :=
    gather_eq digits 0 (Nat.lt_trans small (by decide))
  have in_range : NumberLiteral.inRange ⟨digits, digits, [], 0⟩ = true := by
    simp [NumberLiteral.inRange, gathered, NumberLiteral.gather, not_beyondDoubles small]
  rw [readNumber, parts_of_isWhole is_whole stops]
  exact if_pos in_range

end Numbers

section Items

variable {lexeme : Lexeme} {first others : List Lexeme} {raw rest blanks text : List Char}
  {c : Char}

theorem lookup_of_isDigit (digit : c.isDigit = true) :
    marks.lookup c = none ∧ words.lookup c = none := by
  have each : ∀ entry ∈ marks ++ words, entry.1.isDigit = false := by decide
  have other (entry : Char × Lexeme) (member : entry ∈ marks ++ words) : c ≠ entry.1 := by
    rintro rfl
    rw [each entry member] at digit
    cases digit
  rw [List.lookup_eq_none_iff, List.lookup_eq_none_iff]
  exact ⟨fun entry member => by simpa using other entry (List.mem_append_left _ member),
    fun entry member => by simpa using other entry (List.mem_append_right _ member)⟩

theorem readLexeme_of_held (held : lexeme.NumberIs IsCounter) (spelled : lexeme.Spelled (c :: raw))
    (stops : lexeme.isNumber = true → ∀ c ∈ rest.head?, isNumeric c = false) :
    readLexeme c (raw ++ rest) = .ok (lexeme, rest) := by
  cases number : lexeme.isNumber with
  | false => exact readLexeme_of_spelled spelled number rest
  | true =>
    cases lexeme <;> cases number
    next literal =>
      obtain ⟨n, small, rfl⟩ := held literal rfl
      obtain ⟨-, written⟩ := spelled
      have is_whole : IsWhole (c :: raw) := written ▸ isWhole_toString n
      have value : Text.decimal (c :: raw) < UInt32.size := by
        rw [written, Text.toList_toString, Text.decimal_toDigits]
        exact small
      have read := readNumber_of_isWhole is_whole value (stops rfl)
      have digit : c.isDigit = true := is_whole.1.2 c List.mem_cons_self
      obtain ⟨no_mark, no_word⟩ := lookup_of_isDigit digit
      have no_quote : c ≠ '\x22' := by
        rintro rfl
        cases digit
      rw [List.cons_append] at read
      simp only [readLexeme, no_mark, no_word, if_neg no_quote, digit, true_or, if_true, read]
      rw [written, String.ofList_toList]

theorem items_blanks (blank : ∀ c ∈ blanks, isJsonBlank c = true) (text : List Char) :
    items (blanks ++ text) = items text := by
  induction blanks with
  | nil => rfl
  | cons c blanks ih =>
    obtain ⟨here, later⟩ := List.forall_mem_cons.1 blank
    rw [List.cons_append, items, if_pos here, ih later]

theorem items_of_readLexeme (no_blank : isJsonBlank c = false)
    (read : readLexeme c text = .ok (lexeme, rest)) :
    items (c :: text) = .lexeme lexeme :: items rest := by
  rw [items, if_neg (by simp [no_blank])]
  split
  next found =>
    rw [read] at found
    obtain ⟨rfl, rfl⟩ := Prod.mk.inj (Except.ok.inj found)
    rfl
  next failed =>
    rw [read] at failed
    cases failed

/-- The lexemes as items. -/
def itemsOf (lexemes : List Lexeme) : List Item := lexemes.map .lexeme

/-- A text is taken apart into the lexemes that it lays out, as far as they are held. -/
theorem items_of_laid (laid : Laid Lexeme.Spelled (first ++ others) text)
    (apart : Apart (first ++ others)) (held : NumbersAre IsCounter first) :
    ∃ rest, Laid Lexeme.Spelled others rest ∧ items text = itemsOf first ++ items rest := by
  induction first generalizing text with
  | nil => exact ⟨text, laid, rfl⟩
  | cons lexeme first ih =>
    obtain ⟨here, later⟩ := List.forall_mem_cons.1 held
    cases laid with
    | @cons _ _ blanks raw behind blank spelled laid =>
      obtain ⟨rest, left, taken⟩ := ih laid apart.2 later
      obtain ⟨c, more, rfl, no_blank, -⟩ := spelled.exists_cons
      have read := readLexeme_of_held here spelled fun number =>
        laid.head_not_numeric (apart.1 number)
      refine ⟨rest, left, ?_⟩
      rw [items_blanks blank, List.cons_append, items_of_readLexeme no_blank read, taken]
      rfl

end Items

section Readers

variable {α : Type} {read : Reader α} {value : Value} {a : α} {text : List Char}

/-- The reader takes the lexemes for this, whatever stands behind them. -/
structure Reader.Takes (read : Reader α) (lexemes : List Lexeme) (a : α) : Prop where
  held : NumbersAre IsCounter lexemes
  taken : ∀ behind, read (itemsOf lexemes ++ behind) = .ok (a, behind)

/-- The reader finds within the lexemes that they are not of the shape that is wanted. -/
def Reader.Rejects (read : Reader α) (lexemes : List Lexeme) : Prop :=
  ∃ first others, lexemes = first ++ others ∧ NumbersAre IsCounter first ∧
    ∀ behind, read (itemsOf first ++ behind) = .error .wrongShape

theorem items_of_denotes (denotes : Denotes text value)
    (held : NumbersAre IsCounter value.lexemes) : items text = itemsOf value.lexemes := by
  have whole : Laid Lexeme.Spelled (value.lexemes ++ []) text := by
    rw [List.append_nil]
    exact denotes
  have apart : Apart (value.lexemes ++ []) := by
    rw [List.append_nil]
    exact value.apart_lexemes
  obtain ⟨rest, blanks, taken⟩ := items_of_laid whole apart held
  cases blanks with
  | nil blank =>
    have nothing := items_blanks blank []
    rw [List.append_nil] at nothing
    rw [taken, nothing]
    simp [items]

/-- A text that says the value is read in whole. -/
theorem readText_of_takes (denotes : Denotes text value) (takes : read.Takes value.lexemes a) :
    readText read text = .ok a := by
  have whole := takes.taken []
  rw [List.append_nil] at whole
  rw [readText, items_of_denotes denotes takes.held, whole]
  rfl

/-- A text that says the value is not of the shape that is wanted. -/
theorem readText_of_rejects (denotes : Denotes text value) (rejects : read.Rejects value.lexemes) :
    readText read text = .error .wrongShape := by
  obtain ⟨first, others, split, held, rejected⟩ := rejects
  have apart := value.apart_lexemes
  rw [Denotes, split] at denotes
  rw [split] at apart
  obtain ⟨rest, -, taken⟩ := items_of_laid denotes apart held
  rw [readText, taken, rejected]
  rfl

end Readers

end DreamLexer.Json
