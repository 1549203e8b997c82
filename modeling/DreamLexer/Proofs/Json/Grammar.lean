import DreamLexer.Json.Reading
import DreamLexer.Proofs.Json.Value
import DreamLexer.Proofs.Text.Digits

/-!
# The grammar of JSON

The ways to spell a lexeme, and the texts that put lexemes one after the other with blanks around
them. Which lexeme a text starts with is told by its first character, and where the lexeme ends by
reading it (`readLexeme_of_spelled`), but for a number, which ends where no character of a number
follows. So a text says one thing at most: `Denotes.unique`.
-/

namespace DreamLexer.Json

/-- Decimal digits, at least one. -/
def IsDigits (text : List Char) : Prop := text ≠ [] ∧ ∀ c ∈ text, c.isDigit = true

/-- The digits in front of the point. A zero in front stands alone. -/
def IsWhole (text : List Char) : Prop := IsDigits text ∧ (text.head? = some '0' → text = ['0'])

/-- A point and the digits behind it, or nothing. -/
inductive IsFraction : List Char → Prop
  | none : IsFraction []
  | point {digits : List Char} (is_digits : IsDigits digits) : IsFraction ('.' :: digits)

/-- A power of ten, or nothing. -/
inductive IsExponent : List Char → Prop
  | none : IsExponent []
  | power {letter : Char} {sign digits : List Char} (is_letter : letter = 'e' ∨ letter = 'E')
      (is_sign : sign ∈ [[], ['+'], ['-']]) (is_digits : IsDigits digits) :
      IsExponent (letter :: (sign ++ digits))

/-- A number. -/
inductive IsNumber : List Char → Prop
  | parts {sign whole fraction exponent : List Char} (is_sign : sign ∈ [[], ['-']])
      (is_whole : IsWhole whole) (is_fraction : IsFraction fraction)
      (is_exponent : IsExponent exponent) : IsNumber (sign ++ whole ++ fraction ++ exponent)

/-- The letters that can stand behind a backslash, with the characters they stand for. -/
def escapeLetters : List (Char × Char) :=
  [('\x22', '\x22'), ('\\', '\\'), ('/', '/'), ('b', '\x08'), ('f', '\x0c'), ('n', '\n'),
   ('r', '\r'), ('t', '\t')]

/-- Four hexadecimal digits of this value. -/
def WritesUnit (digits : List Char) (value : Nat) : Prop :=
  digits.length = 4 ∧ hexValue? digits = some value

/-- The ways to spell a character of a string: as it is, by a letter, by its number, or by the
numbers of the two units that a character beyond the first plane has. -/
inductive Spells : List Char → Char → Prop
  | plain {c : Char} (no_quote : c ≠ '\x22') (no_backslash : c ≠ '\\')
      (no_control : 0x20 ≤ c.toNat) : Spells [c] c
  | letter {letter c : Char} (entry : (letter, c) ∈ escapeLetters) : Spells ['\\', letter] c
  | unit {digits : List Char} {c : Char} (writes : WritesUnit digits c.toNat) :
      Spells ('\\' :: 'u' :: digits) c
  | units {first second : List Char} {high low : Nat} {c : Char} (writes : WritesUnit first high)
      (writes' : WritesUnit second low) (is_first : isFirstOfTwo high = true)
      (is_second : isSecondOfTwo low = true)
      (number : c.toNat = 0x10000 + (high - 0xD800) * 0x400 + (low - 0xDC00)) :
      Spells ('\\' :: 'u' :: (first ++ '\\' :: 'u' :: second)) c

/-- The ways to spell the characters of a string. -/
inductive SpellsText : List Char → List Char → Prop
  | nil : SpellsText [] []
  | cons {raw rest content : List Char} {c : Char} (spells : Spells raw c)
      (others : SpellsText rest content) : SpellsText (raw ++ rest) (c :: content)

/-- The ways to spell a lexeme. -/
def Lexeme.Spelled : Lexeme → List Char → Prop
  | .openArray, text => text = ['[']
  | .closeArray, text => text = [']']
  | .openObject, text => text = ['\x7b']
  | .closeObject, text => text = ['\x7d']
  | .comma, text => text = [',']
  | .colon, text => text = [':']
  | .string content, text =>
    ∃ raw, SpellsText raw content.toList ∧ text = '\x22' :: (raw ++ ['\x22'])
  | .number literal, text => IsNumber text ∧ text = literal.toList
  | .bool true, text => text = ['t', 'r', 'u', 'e']
  | .bool false, text => text = ['f', 'a', 'l', 's', 'e']
  | .null, text => text = ['n', 'u', 'l', 'l']

/-- A text of lexemes with blanks around them, each of them spelled in one of the given ways. -/
inductive Laid (spelled : Lexeme → List Char → Prop) : List Lexeme → List Char → Prop
  | nil {blanks : List Char} (blank : ∀ c ∈ blanks, isJsonBlank c = true) : Laid spelled [] blanks
  | cons {lexeme : Lexeme} {lexemes : List Lexeme} {blanks raw rest : List Char}
      (blank : ∀ c ∈ blanks, isJsonBlank c = true) (here : spelled lexeme raw)
      (others : Laid spelled lexemes rest) :
      Laid spelled (lexeme :: lexemes) (blanks ++ (raw ++ rest))

/-- The text says the value. -/
def Denotes (text : List Char) (value : Value) : Prop :=
  Laid Lexeme.Spelled value.lexemes text

/-- The characters of numbers. -/
def isNumeric (c : Char) : Bool :=
  c.isDigit || c == '-' || c == '+' || c == '.' || c == 'e' || c == 'E'

section Numbers

variable {text : List Char} {c : Char}

theorem IsDigits.numeric (digits : IsDigits text) (member : c ∈ text) : isNumeric c = true := by
  simp [isNumeric, digits.2 c member]

theorem IsNumber.numeric (number : IsNumber text) (member : c ∈ text) : isNumeric c = true := by
  obtain ⟨is_sign, is_whole, is_fraction, is_exponent⟩ := number
  simp only [List.mem_append] at member
  rcases member with ((sign | whole) | fraction) | exponent
  · simp only [List.mem_cons, List.not_mem_nil, or_false] at is_sign
    rcases is_sign with rfl | rfl
    · cases sign
    · obtain rfl := List.mem_singleton.1 sign
      decide
  · exact is_whole.1.numeric whole
  · cases is_fraction with
    | none => cases fraction
    | point is_digits =>
      cases fraction with
      | head => decide
      | tail _ digit => exact is_digits.numeric digit
  · cases is_exponent with
    | none => cases exponent
    | power is_letter is_sign is_digits =>
      simp only [List.mem_cons, List.mem_append, List.not_mem_nil, or_false] at exponent is_sign
      rcases exponent with rfl | sign | digit
      · rcases is_letter with rfl | rfl <;> decide
      · rcases is_sign with rfl | rfl | rfl
        · cases sign
        · obtain rfl := List.mem_singleton.1 sign
          decide
        · obtain rfl := List.mem_singleton.1 sign
          decide
      · exact is_digits.numeric digit

theorem IsNumber.ne_nil (number : IsNumber text) : text ≠ [] := by
  obtain ⟨-, ⟨⟨some_digit, -⟩, -⟩, -, -⟩ := number
  simp [some_digit]

theorem isWhole_toString (n : Nat) : IsWhole (toString n).toList := by
  refine ⟨⟨?_, fun c => Text.isDigit_of_mem_toString⟩, fun zero => ?_⟩
  · rw [Text.toList_toString]
    exact Nat.toDigits_ne_nil
  · rw [Text.toList_toString] at zero ⊢
    cases n with
    | zero => rfl
    | succ n => exact absurd zero (Text.head?_toDigits n.succ_pos)

/-- A natural number is written as a number of the grammar. -/
theorem isNumber_toString (n : Nat) : IsNumber (toString n).toList := by
  have whole : IsNumber ([] ++ (toString n).toList ++ [] ++ []) :=
    .parts (by simp) (isWhole_toString n) .none .none
  simpa using whole

theorem natural?_toString (n : Nat) : natural? (toString n).toList = some n := by
  have digits : (toString n).toList.all Char.isDigit = true :=
    List.all_eq_true.2 fun c => Text.isDigit_of_mem_toString
  rw [natural?, if_pos digits, Text.toList_toString, Text.decimal_toDigits]

end Numbers

section Strings

variable {digits raw content rest : List Char} {value : Nat} {c : Char}

theorem readUnit_of_writes (writes : WritesUnit digits value) (rest : List Char) :
    readUnit (digits ++ rest) = .ok (value, rest) := by
  obtain ⟨four, value_eq⟩ := writes
  have taken : (digits ++ rest).take 4 = digits := List.take_left' four
  have left : (digits ++ rest).drop 4 = rest := List.drop_left' four
  simp [readUnit, taken, left, four, value_eq]

theorem not_half (c : Char) : isFirstOfTwo c.toNat = false ∧ isSecondOfTwo c.toNat = false := by
  have valid : c.toNat < 0xD800 ∨ (0xDFFF < c.toNat ∧ c.toNat < 0x110000) := c.valid
  simp only [isFirstOfTwo, isSecondOfTwo, Bool.and_eq_false_iff, decide_eq_false_iff_not]
  omega

theorem readEscape_of_letter {letter : Char} (entry : (letter, c) ∈ escapeLetters)
    (rest : List Char) : readEscape (letter :: rest) = .ok (c, rest) := by
  have each : ∀ entry ∈ escapeLetters, entry.1 ≠ 'u' ∧ lettered? entry.1 = some entry.2 := by
    decide
  obtain ⟨no_unit, stands⟩ := each _ entry
  rw [readEscape, if_neg no_unit, stands]

theorem readEscape_of_unit (writes : WritesUnit digits c.toNat) (rest : List Char) :
    readEscape ('u' :: (digits ++ rest)) = .ok (c, rest) := by
  obtain ⟨no_first, no_second⟩ := not_half c
  simp [readEscape, readNumbered, readUnit_of_writes writes, bind, Except.bind, no_first,
    no_second, Char.ofNat_toNat]

theorem readEscape_of_units {first second : List Char} {high low : Nat}
    (writes : WritesUnit first high) (writes' : WritesUnit second low)
    (is_first : isFirstOfTwo high = true) (is_second : isSecondOfTwo low = true)
    (number : c.toNat = 0x10000 + (high - 0xD800) * 0x400 + (low - 0xDC00)) (rest : List Char) :
    readEscape ('u' :: (first ++ '\\' :: 'u' :: second ++ rest)) = .ok (c, rest) := by
  have no_second : isSecondOfTwo high = false := by
    simp only [isFirstOfTwo, isSecondOfTwo, Bool.and_eq_true, decide_eq_true_eq,
      Bool.and_eq_false_iff, decide_eq_false_iff_not] at is_first ⊢
    omega
  simp [readEscape, readNumbered, readUnit_of_writes writes, readUnit_of_writes writes', expect,
    bind, Except.bind, is_first, is_second, no_second, ← number, Char.ofNat_toNat]

theorem readStringFrom_of_escape {before text : List Char}
    (escape : readEscape text = .ok (c, rest)) :
    readStringFrom before ('\\' :: text) = readStringFrom (c :: before) rest := by
  rw [readStringFrom, if_neg (by decide), if_pos rfl]
  split
  next problem failed =>
    rw [escape] at failed
    cases failed
  next escaped behind read =>
    rw [escape] at read
    obtain ⟨rfl, rfl⟩ := Prod.mk.inj (Except.ok.inj read)
    rfl

/-- One character of a string is read, however it is spelled. -/
theorem readStringFrom_of_spells (spells : Spells raw c) (before rest : List Char) :
    readStringFrom before (raw ++ rest) = readStringFrom (c :: before) rest := by
  cases spells with
  | plain no_quote no_backslash no_control =>
    rw [List.singleton_append, readStringFrom, if_neg no_quote, if_neg no_backslash,
      if_neg (Nat.not_lt.2 no_control)]
  | letter entry => exact readStringFrom_of_escape (readEscape_of_letter entry rest)
  | unit writes => exact readStringFrom_of_escape (readEscape_of_unit writes rest)
  | units writes writes' is_first is_second number =>
    exact readStringFrom_of_escape
      (readEscape_of_units writes writes' is_first is_second number rest)

theorem readStringFrom_of_spellsText (spells : SpellsText raw content) (before rest : List Char) :
    readStringFrom before (raw ++ '\x22' :: rest) = .ok (before.reverse ++ content, rest) := by
  induction spells generalizing before with
  | nil => simp [readStringFrom]
  | cons spells others ih =>
    rw [List.append_assoc, readStringFrom_of_spells spells, ih]
    simp

end Strings

section Lexemes

variable {lexeme : Lexeme} {lexemes : List Lexeme} {raw blanks text : List Char} {c : Char}

theorem not_isJsonBlank_of_isNumeric (numeric : isNumeric c = true) : isJsonBlank c = false := by
  cases blank : isJsonBlank c with
  | false => rfl
  | true =>
    simp only [isJsonBlank, Bool.or_eq_true, beq_iff_eq] at blank
    rcases blank with ((rfl | rfl) | rfl) | rfl <;> exact absurd numeric (by decide)

/-- The first character of a lexeme is no blank, and tells whether it is a number. -/
theorem Lexeme.Spelled.exists_cons (spelled : lexeme.Spelled raw) :
    ∃ c others, raw = c :: others ∧ isJsonBlank c = false ∧ isNumeric c = lexeme.isNumber := by
  cases lexeme with
  | string content =>
    obtain ⟨inner, -, rfl⟩ := spelled
    exact ⟨_, _, rfl, rfl, rfl⟩
  | number literal =>
    obtain ⟨number, -⟩ := spelled
    obtain ⟨c, others, rfl⟩ := List.exists_cons_of_ne_nil number.ne_nil
    have numeric : isNumeric c = true := number.numeric List.mem_cons_self
    exact ⟨c, others, rfl, not_isJsonBlank_of_isNumeric numeric, numeric⟩
  | bool value =>
    cases value <;> obtain rfl := spelled <;> exact ⟨_, _, rfl, by decide, by decide⟩
  | _ =>
    obtain rfl := spelled
    exact ⟨_, _, rfl, by decide, by decide⟩

/-- A lexeme that is no number is read, whatever stands behind it. -/
theorem readLexeme_of_spelled (spelled : lexeme.Spelled (c :: raw))
    (no_number : lexeme.isNumber = false) (rest : List Char) :
    readLexeme c (raw ++ rest) = .ok (lexeme, rest) := by
  cases lexeme with
  | string content =>
    obtain ⟨inner, spells, same⟩ := spelled
    obtain ⟨rfl, rfl⟩ := List.cons.inj same
    have read : readString (inner ++ '\x22' :: rest) = .ok (content.toList, rest) :=
      readStringFrom_of_spellsText spells [] rest
    simp [readLexeme, marks, words, List.lookup_cons, read]
  | number literal => cases no_number
  | bool value =>
    cases value <;> obtain ⟨rfl, rfl⟩ := List.cons.inj spelled <;>
      simp [readLexeme, marks, words, List.lookup_cons, Lexeme.text, spell]
  | null =>
    obtain ⟨rfl, rfl⟩ := List.cons.inj spelled
    simp [readLexeme, marks, words, List.lookup_cons, Lexeme.text, spell]
  | _ =>
    obtain ⟨rfl, rfl⟩ := List.cons.inj spelled
    simp [readLexeme, marks, List.lookup_cons]

/-- What stands behind a number does not go on with it. -/
theorem Laid.head_not_numeric (laid : Laid Lexeme.Spelled lexemes text)
    (next : ∀ lexeme ∈ lexemes.head?, lexeme.isNumber = false) :
    ∀ c ∈ text.head?, isNumeric c = false := by
  have of_blank {c : Char} (blank : isJsonBlank c = true) : isNumeric c = false := by
    cases numeric : isNumeric c with
    | false => rfl
    | true =>
      rw [not_isJsonBlank_of_isNumeric numeric] at blank
      cases blank
  intro c first
  cases laid with
  | nil blank => exact of_blank (blank c (List.mem_of_mem_head? first))
  | @cons lexeme _ blanks raw rest blank here _ =>
    cases blanks with
    | nil =>
      obtain ⟨d, others, rfl, -, numeric⟩ := here.exists_cons
      obtain rfl := Option.some.inj first
      exact numeric.trans (next lexeme rfl)
    | cons d blanks =>
      obtain rfl := Option.some.inj first
      exact of_blank (blank d List.mem_cons_self)

/-- Blanks in front of a lexeme are told from it. -/
theorem Lexeme.Spelled.dropBlanks (spelled : lexeme.Spelled raw)
    (blank : ∀ c ∈ blanks, isJsonBlank c = true) (rest : List Char) :
    (blanks ++ (raw ++ rest)).dropWhile isJsonBlank = raw ++ rest := by
  obtain ⟨c, others, rfl, no_blank, -⟩ := spelled.exists_cons
  refine (Text.takeWhile_dropWhile_of_stops blank fun d first => ?_).2
  obtain rfl := Option.some.inj first
  exact no_blank

/-- Two lexemes that a text starts with are the same, and so is what stands behind them. -/
theorem Lexeme.Spelled.inj {lexeme' : Lexeme} {raw' rest rest' : List Char}
    (spelled : lexeme.Spelled raw) (spelled' : lexeme'.Spelled raw')
    (stops : lexeme.isNumber = true → ∀ c ∈ rest.head?, isNumeric c = false)
    (stops' : lexeme'.isNumber = true → ∀ c ∈ rest'.head?, isNumeric c = false)
    (same : raw ++ rest = raw' ++ rest') : lexeme = lexeme' ∧ rest = rest' := by
  obtain ⟨c, others, rfl, -, numeric⟩ := spelled.exists_cons
  obtain ⟨d, others', rfl, -, numeric'⟩ := spelled'.exists_cons
  obtain ⟨rfl, tails⟩ := List.cons.inj same
  have kinds : lexeme.isNumber = lexeme'.isNumber := numeric.symm.trans numeric'
  cases number : lexeme.isNumber with
  | false =>
    have read := readLexeme_of_spelled spelled number rest
    have read' := readLexeme_of_spelled spelled' (kinds.symm.trans number) rest'
    rw [show others ++ rest = others' ++ rest' from tails, read'] at read
    obtain ⟨rfl, rfl⟩ := Prod.mk.inj (Except.ok.inj read)
    exact ⟨rfl, rfl⟩
  | true =>
    have number' := kinds.symm.trans number
    cases lexeme <;> cases number
    cases lexeme' <;> cases number'
    next literal literal' =>
      obtain ⟨is_number, literal_eq⟩ := spelled
      obtain ⟨is_number', literal_eq'⟩ := spelled'
      have raws := congrArg (List.takeWhile isNumeric) same
      rw [(Text.takeWhile_dropWhile_of_stops (fun c => is_number.numeric) (stops rfl)).1,
        (Text.takeWhile_dropWhile_of_stops (fun c => is_number'.numeric) (stops' rfl)).1] at raws
      rw [raws] at same literal_eq
      exact ⟨congrArg _ (String.toList_inj.1 (literal_eq.symm.trans literal_eq')),
        List.append_cancel_left same⟩

end Lexemes

/-- A text puts one list of lexemes at most one after the other. -/
theorem Laid.unique {lexemes lexemes' : List Lexeme} {text : List Char}
    (laid : Laid Lexeme.Spelled lexemes text) (laid' : Laid Lexeme.Spelled lexemes' text)
    (apart : Apart lexemes) (apart' : Apart lexemes') : lexemes = lexemes' := by
  have not_blanks {lexeme : Lexeme} {blanks raw rest : List Char}
      (here : lexeme.Spelled raw) (blank : ∀ c ∈ blanks ++ (raw ++ rest), isJsonBlank c = true) :
      False := by
    obtain ⟨c, others, rfl, no_blank, -⟩ := here.exists_cons
    rw [blank c (by simp)] at no_blank
    cases no_blank
  generalize whole : text = text' at laid'
  induction laid generalizing lexemes' text' with
  | nil blank =>
    subst whole
    cases laid' with
    | nil => rfl
    | cons _ here _ => exact (not_blanks here blank).elim
  | cons blank here others ih =>
    cases laid' with
    | nil blank' => exact (not_blanks here (whole ▸ blank')).elim
    | cons blank' here' others' =>
      have lexemes_eq := congrArg (List.dropWhile isJsonBlank) whole
      rw [here.dropBlanks blank, here'.dropBlanks blank'] at lexemes_eq
      obtain ⟨rfl, rest_eq⟩ := here.inj here'
        (fun number => others.head_not_numeric (apart.1 number))
        (fun number => others'.head_not_numeric (apart'.1 number)) lexemes_eq
      exact congrArg _ (ih apart.2 apart'.2 _ rest_eq others')

/-- A text says one value at most. -/
theorem Denotes.unique {text : List Char} {value other : Value} (denotes : Denotes text value)
    (denotes' : Denotes text other) : value = other := by
  have same : value.lexemes = other.lexemes :=
    Laid.unique denotes denotes' value.apart_lexemes other.apart_lexemes
  have with_end : value.lexemes ++ [] = other.lexemes ++ [] := by rw [same]
  exact (value.delimited_lexemes with_end).1

end DreamLexer.Json
