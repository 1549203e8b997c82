import DreamLexer.Json.Printer
import DreamLexer.Proofs.Json.Grammar

/-!
# Printed lexemes

Both layouts put the lexemes one after the other and nothing but blanks between them
(`laid_compact`, `laid_indented`), so they say the same. What tells them apart are the blanks
outside of the strings: without them any layout is the compact one (`unblanked_of_laid`).
-/

namespace DreamLexer.Json

/-- The literal is a number of the grammar. -/
def IsLiteral (literal : String) : Prop := IsNumber literal.toList

/-- The way a lexeme is printed. -/
def Lexeme.Printed (lexeme : Lexeme) (text : List Char) : Prop :=
  lexeme.NumberIs IsLiteral ∧ text = lexeme.text

/-- The text without the blanks outside of its strings, if it starts in a string or outside of all
strings. -/
def unblankedFrom : Bool → List Char → List Char
  | _, [] => []
  | true, '\\' :: c :: rest => '\\' :: c :: unblankedFrom true rest
  | true, c :: rest => c :: unblankedFrom (c != '\x22') rest
  | false, c :: rest =>
    if isJsonBlank c then unblankedFrom false rest else c :: unblankedFrom (c == '\x22') rest

/-- The text without the blanks outside of its strings. -/
def unblanked (text : List Char) : List Char := unblankedFrom false text

section Spelling

/-- The escapes of the control characters without a letter. -/
theorem writesUnit_control {n : Nat} (control : n < 0x20) :
    WritesUnit ['0', '0', Nat.digitChar (n / 16), Nat.digitChar (n % 16)] n := by
  have each : ∀ n < 0x20,
      hexValue? ['0', '0', Nat.digitChar (n / 16), Nat.digitChar (n % 16)] = some n := by decide
  exact ⟨rfl, each n control⟩

theorem spells_escapedChar (c : Char) : Spells (escapedChar c) c := by
  unfold escapedChar
  split
  next quote =>
    subst quote
    exact .letter (by decide)
  split
  next backslash =>
    subst backslash
    exact .letter (by decide)
  split
  next backspace =>
    subst backspace
    exact .letter (by decide)
  split
  next form =>
    subst form
    exact .letter (by decide)
  split
  next feed =>
    subst feed
    exact .letter (by decide)
  split
  next carriage =>
    subst carriage
    exact .letter (by decide)
  split
  next tab =>
    subst tab
    exact .letter (by decide)
  split
  next control => exact .unit (writesUnit_control control)
  next no_quote no_backslash _ _ _ _ _ no_control =>
    exact .plain no_quote no_backslash (Nat.not_lt.1 no_control)

theorem spellsText_escaped (content : List Char) :
    SpellsText (content.flatMap escapedChar) content := by
  induction content with
  | nil => exact .nil
  | cons c content ih => exact .cons (spells_escapedChar c) ih

/-- What is printed for a lexeme is one of the ways to spell it. -/
theorem Lexeme.Printed.spelled {lexeme : Lexeme} {text : List Char}
    (printed : lexeme.Printed text) : lexeme.Spelled text := by
  obtain ⟨literals, rfl⟩ := printed
  cases lexeme with
  | string content => exact ⟨_, spellsText_escaped content.toList, rfl⟩
  | number literal => exact ⟨literals literal rfl, rfl⟩
  | bool value => cases value <;> rfl
  | _ => rfl

theorem Laid.mono {spelled spelled' : Lexeme → List Char → Prop} {lexemes : List Lexeme}
    {text : List Char} (weaker : ∀ lexeme raw, spelled lexeme raw → spelled' lexeme raw)
    (laid : Laid spelled lexemes text) : Laid spelled' lexemes text := by
  induction laid with
  | nil blank => exact .nil blank
  | cons blank here _ ih => exact .cons blank (weaker _ _ here) ih

theorem Laid.append_blanks {spelled : Lexeme → List Char → Prop} {lexemes : List Lexeme}
    {text blanks : List Char} (laid : Laid spelled lexemes text)
    (blank : ∀ c ∈ blanks, isJsonBlank c = true) : Laid spelled lexemes (text ++ blanks) := by
  induction laid with
  | nil before => exact .nil (List.forall_mem_append.2 ⟨before, blank⟩)
  | cons before here _ ih =>
    rw [List.append_assoc, List.append_assoc]
    exact .cons before here ih

end Spelling

section Layouts

variable {lexemes : List Lexeme}

theorem laid_compact (literals : NumbersAre IsLiteral lexemes) :
    Laid Lexeme.Printed lexemes (compact lexemes) := by
  induction lexemes with
  | nil => exact .nil (by simp [compact])
  | cons lexeme lexemes ih =>
    obtain ⟨here, later⟩ := List.forall_mem_cons.1 literals
    exact .cons (List.forall_mem_nil _) ⟨here, rfl⟩ (ih later)

theorem blank_lineBreak (depth : Nat) : ∀ c ∈ lineBreak depth, isJsonBlank c = true := by
  intro c member
  rcases List.mem_cons.1 member with rfl | space
  · decide
  · obtain rfl := List.eq_of_mem_replicate space
    decide

theorem blank_gap (depth : Nat) (before after : Lexeme) :
    ∀ c ∈ gap depth before after, isJsonBlank c = true := by
  unfold gap
  split
  · split
    · simp
    · exact blank_lineBreak _
  · split
    · exact blank_lineBreak _
    · split
      · simp [isJsonBlank]
      · simp

/-- Whatever was written before, the lexemes are written behind it. -/
theorem foldl_write (literals : NumbersAre IsLiteral lexemes) (page : Page) :
    ∃ more, (lexemes.foldl Page.write page).text.toList = page.text.toList ++ more ∧
      Laid Lexeme.Printed lexemes more := by
  induction lexemes generalizing page with
  | nil => exact ⟨[], by simp, .nil (by simp)⟩
  | cons lexeme lexemes ih =>
    obtain ⟨here, later⟩ := List.forall_mem_cons.1 literals
    obtain ⟨more, written, laid⟩ := ih later (page.write lexeme)
    obtain ⟨blanks, blank, parted⟩ : ∃ blanks, (∀ c ∈ blanks, isJsonBlank c = true) ∧
        (page.write lexeme).text.toList = page.text.toList ++ (blanks ++ lexeme.text) := by
      cases last : page.last with
      | none => exact ⟨[], by simp, by simp [Page.write, last]⟩
      | some last' =>
        exact ⟨gap page.depth last' lexeme, blank_gap _ _ _, by simp [Page.write, last]⟩
    refine ⟨blanks ++ (lexeme.text ++ more), ?_, .cons blank ⟨here, rfl⟩ laid⟩
    rw [List.foldl_cons, written, parted]
    simp

theorem laid_indented (literals : NumbersAre IsLiteral lexemes) :
    Laid Lexeme.Printed lexemes (indented lexemes) := by
  obtain ⟨more, written, laid⟩ := foldl_write literals ⟨"", 0, none⟩
  rw [indented, written]
  simpa using laid

end Layouts

section Blanks

variable {lexeme : Lexeme} {lexemes : List Lexeme} {text : List Char}

theorem unblankedFrom_blanks (blank : ∀ c ∈ text, isJsonBlank c = true) (rest : List Char) :
    unblankedFrom false (text ++ rest) = unblankedFrom false rest := by
  induction text with
  | nil => rfl
  | cons c text ih =>
    obtain ⟨here, later⟩ := List.forall_mem_cons.1 blank
    rw [List.cons_append, unblankedFrom, if_pos here, ih later]

theorem unblankedFrom_outside (no_blank : ∀ c ∈ text, isJsonBlank c = false ∧ c ≠ '\x22')
    (rest : List Char) : unblankedFrom false (text ++ rest) = text ++ unblankedFrom false rest := by
  induction text with
  | nil => rfl
  | cons c text ih =>
    obtain ⟨⟨here, no_quote⟩, later⟩ := List.forall_mem_cons.1 no_blank
    rw [List.cons_append, unblankedFrom, if_neg (by simp [here]), beq_false_of_ne no_quote,
      ih later, List.cons_append]

theorem unblankedFrom_inside (plain : ∀ c ∈ text, c ≠ '\\' ∧ c ≠ '\x22') (rest : List Char) :
    unblankedFrom true (text ++ rest) = text ++ unblankedFrom true rest := by
  induction text with
  | nil => rfl
  | cons c text ih =>
    obtain ⟨⟨no_backslash, no_quote⟩, later⟩ := List.forall_mem_cons.1 plain
    have step : unblankedFrom true (c :: (text ++ rest)) =
        c :: unblankedFrom (c != '\x22') (text ++ rest) := by
      rw [unblankedFrom]
      rintro d others rfl
      exact absurd rfl no_backslash
    rw [List.cons_append, step, bne_iff_ne.2 no_quote, ih later, List.cons_append]

theorem isSome_of_foldlM {digits : List Char} {start value : Nat}
    (folds : digits.foldlM (fun n c => (hexDigit? c).map (16 * n + ·)) start = some value) :
    ∀ c ∈ digits, (hexDigit? c).isSome = true := by
  induction digits generalizing start with
  | nil => simp
  | cons digit digits ih =>
    cases first : hexDigit? digit with
    | none => simp [first] at folds
    | some n =>
      simp only [List.foldlM_cons, first, Option.map_some, Option.bind_eq_bind,
        Option.bind_some] at folds
      exact List.forall_mem_cons.2 ⟨by rw [first]; rfl, ih folds⟩

theorem unblankedFrom_unit {digits : List Char} {value : Nat} (writes : WritesUnit digits value)
    (rest : List Char) :
    unblankedFrom true ('\\' :: 'u' :: (digits ++ rest)) =
      '\\' :: 'u' :: (digits ++ unblankedFrom true rest) := by
  have plain : ∀ c ∈ digits, c ≠ '\\' ∧ c ≠ '\x22' := by
    intro c member
    have digit := isSome_of_foldlM writes.2 c member
    constructor <;> rintro rfl <;> cases digit
  rw [unblankedFrom, unblankedFrom_inside plain]

/-- A character of a string stays, however it is spelled. -/
theorem unblankedFrom_spells {raw : List Char} {c : Char} (spells : Spells raw c)
    (rest : List Char) : unblankedFrom true (raw ++ rest) = raw ++ unblankedFrom true rest := by
  cases spells with
  | plain no_quote no_backslash =>
    exact unblankedFrom_inside (by simp [no_quote, no_backslash]) rest
  | letter => rfl
  | unit writes => exact unblankedFrom_unit writes rest
  | units writes writes' =>
    rw [List.cons_append, List.cons_append, List.append_assoc, unblankedFrom_unit writes,
      List.cons_append, List.cons_append, unblankedFrom_unit writes']
    simp

theorem unblankedFrom_spellsText {raw content : List Char} (spells : SpellsText raw content)
    (rest : List Char) :
    unblankedFrom true (raw ++ '\x22' :: rest) = raw ++ '\x22' :: unblankedFrom false rest := by
  induction spells with
  | nil => rfl
  | cons spells others ih =>
    rw [List.append_assoc, unblankedFrom_spells spells, ih, List.append_assoc]

/-- A lexeme stays, however it is spelled. -/
theorem unblankedFrom_spelled {raw : List Char} (spelled : lexeme.Spelled raw) (rest : List Char) :
    unblankedFrom false (raw ++ rest) = raw ++ unblankedFrom false rest := by
  cases lexeme with
  | string content =>
    obtain ⟨inner, spells, rfl⟩ := spelled
    have opened : unblankedFrom false ('\x22' :: (inner ++ '\x22' :: rest)) =
        '\x22' :: unblankedFrom true (inner ++ '\x22' :: rest) := by
      rw [unblankedFrom, if_neg (by decide)]
      rfl
    rw [List.cons_append, List.append_assoc, List.singleton_append, opened,
      unblankedFrom_spellsText spells]
    simp
  | number literal =>
    obtain ⟨number, -⟩ := spelled
    refine unblankedFrom_outside (fun c member => ?_) rest
    have numeric := number.numeric member
    refine ⟨not_isJsonBlank_of_isNumeric numeric, ?_⟩
    rintro rfl
    cases numeric
  | bool value => cases value <;> obtain rfl := spelled <;> rfl
  | _ =>
    obtain rfl := spelled
    rfl

/-- Without its blanks any layout is the compact one. -/
theorem unblanked_of_laid (laid : Laid Lexeme.Printed lexemes text) :
    unblanked text = compact lexemes := by
  unfold unblanked
  induction laid with
  | nil blank => simpa [unblankedFrom, compact] using unblankedFrom_blanks blank []
  | cons blank here _ ih =>
    rw [unblankedFrom_blanks blank, unblankedFrom_spelled here.spelled, ih, here.2]
    rfl

end Blanks

end DreamLexer.Json
