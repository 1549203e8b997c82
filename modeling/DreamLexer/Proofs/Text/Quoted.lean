import DreamLexer.Proofs.Text.Delimited
import DreamLexer.Proofs.Text.Digits
import DreamLexer.Text.Quoted

/-!
# Quoted text is read back

A character is quoted by name, by number or as it is, and the first characters tell which. So a
quoted text tells the text and where it ends (`delimited_quoted`), and it stays on its line
(`not_mem_quoted`).
-/

namespace DreamLexer.Text

/-- The characters that are quoted by a letter behind a backslash, with their letters. -/
def letters : List (Char × Char) :=
  [(doubleQuote, doubleQuote), ('\\', '\\'), ('\x00', '0'), ('\t', 't'), ('\n', 'n'), ('\r', 'r')]

/-- The ways to quote a character. -/
inductive Quotes : Char → List Char → Prop
  | named {c letter : Char} (entry : (c, letter) ∈ letters) : Quotes c ['\\', letter]
  | numbered (c : Char) : Quotes c (numbered c)
  | plain {c : Char} (no_backslash : c ≠ '\\') (no_quote : c ≠ doubleQuote)
      (no_tab : c ≠ '\t') (no_feed : c ≠ '\n') : Quotes c [c]

theorem quotes_quotedChar (c : Char) : Quotes c (quotedChar c) := by
  unfold quotedChar
  split
  next quote =>
    subst quote
    exact .named (by decide)
  split
  next backslash =>
    subst backslash
    exact .named (by decide)
  split
  next zero =>
    subst zero
    exact .named (by decide)
  split
  next tab =>
    subst tab
    exact .named (by decide)
  split
  next feed =>
    subst feed
    exact .named (by decide)
  split
  next carriage =>
    subst carriage
    exact .named (by decide)
  split
  next => exact .numbered c
  next no_quote no_backslash _ no_tab no_feed _ _ =>
    exact .plain no_backslash no_quote no_tab no_feed

/-- The letters tell the characters. -/
theorem letters_inj :
    ∀ entry ∈ letters, ∀ other ∈ letters, entry.2 = other.2 → entry.1 = other.1 := by
  decide

theorem ne_of_letters : ∀ entry ∈ letters, entry.2 ≠ 'u' := by decide

theorem numbered_inj {c d : Char} {rest other : List Char}
    (same : numbered c ++ rest = numbered d ++ other) : c = d ∧ rest = other := by
  have no_brace (c : Char) : '\x7d' ∉ Nat.toDigits 16 c.toNat := by
    intro member
    obtain ⟨digit, below, brace⟩ := mem_toDigits (by decide) member
    have none_is : ∀ digit < 16, '\x7d' ≠ Nat.digitChar digit := by decide
    exact none_is digit below brace
  have digits : Nat.toDigits 16 c.toNat ++ '\x7d' :: rest =
      Nat.toDigits 16 d.toNat ++ '\x7d' :: other := by
    simpa [numbered] using same
  obtain ⟨number, behind⟩ := append_mark_inj (no_brace c) (no_brace d) digits
  exact ⟨Char.toNat_inj.1 (toDigits_inj (by decide) (by decide) number), behind⟩

/-- What is written for a character tells it, in whatever way it is quoted. -/
theorem Quotes.inj {c d : Char} {raw raw' rest other : List Char} (quotes : Quotes c raw)
    (quotes' : Quotes d raw') (same : raw ++ rest = raw' ++ other) : c = d ∧ rest = other := by
  cases quotes with
  | named entry =>
    cases quotes' with
    | named entry' =>
      obtain ⟨letter, behind⟩ := List.cons.inj (List.cons.inj same).2
      exact ⟨letters_inj _ entry _ entry' letter, behind⟩
    | numbered =>
      exact absurd (List.cons.inj (List.cons.inj same).2).1 (ne_of_letters _ entry)
    | plain no_backslash => exact absurd (List.cons.inj same).1.symm no_backslash
  | numbered =>
    cases quotes' with
    | named entry' =>
      exact absurd (List.cons.inj (List.cons.inj same).2).1.symm (ne_of_letters _ entry')
    | numbered => exact numbered_inj same
    | plain no_backslash => exact absurd (List.cons.inj same).1.symm no_backslash
  | plain no_backslash =>
    cases quotes' with
    | named => exact absurd (List.cons.inj same).1 no_backslash
    | numbered => exact absurd (List.cons.inj same).1 no_backslash
    | plain => exact List.cons.inj same

theorem Quotes.exists_cons {c : Char} {raw : List Char} (quotes : Quotes c raw) :
    ∃ first others, raw = first :: others ∧ first ≠ doubleQuote := by
  cases quotes with
  | named => exact ⟨'\\', _, rfl, by decide⟩
  | numbered => exact ⟨'\\', _, rfl, by decide⟩
  | plain _ no_quote => exact ⟨c, _, rfl, no_quote⟩

theorem Quotes.not_mem {c blank : Char} {raw : List Char} (quotes : Quotes c raw)
    (is_blank : blank = '\t' ∨ blank = '\n') : blank ∉ raw := by
  intro member
  cases quotes with
  | @named letter entry =>
    have none_is : ∀ entry ∈ letters, entry.2 ≠ '\t' ∧ entry.2 ≠ '\n' := by decide
    obtain ⟨no_tab, no_feed⟩ := none_is _ entry
    have letter_or_mark : blank = '\\' ∨ blank = letter := by simpa using member
    rcases letter_or_mark with rfl | rfl
    · exact absurd is_blank (by decide)
    · exact is_blank.elim no_tab no_feed
  | numbered =>
    simp only [Text.numbered, List.mem_append] at member
    rcases member with (front | digits) | last
    · rcases is_blank with rfl | rfl <;> exact absurd front (by decide)
    · obtain ⟨digit, below, rfl⟩ := mem_toDigits (by decide) digits
      have none_is : ∀ digit < 16, Nat.digitChar digit ≠ '\t' ∧ Nat.digitChar digit ≠ '\n' := by
        decide
      obtain ⟨no_tab, no_feed⟩ := none_is digit below
      exact is_blank.elim no_tab no_feed
    · rcases is_blank with rfl | rfl <;> exact absurd last (by decide)
  | plain _ _ no_tab no_feed =>
    obtain rfl := List.mem_singleton.1 member
    exact is_blank.elim no_tab no_feed

theorem delimited_quotedChar (c : Char) : Delimited quotedChar c :=
  fun d _ _ same => (quotes_quotedChar c).inj (quotes_quotedChar d) same

/-- A quoted text tells the text and where it ends. -/
theorem delimited_quoted (text : List Char) : Delimited quoted text := by
  have inner : Delimited (fun text => text.flatMap quotedChar ++ [doubleQuote]) text :=
    delimited_flatMap doubleQuote (fun c _ => delimited_quotedChar c)
      fun c => (quotes_quotedChar c).exists_cons
  intro text' rest other same
  have behind := (List.cons.inj same).2
  exact inner behind

/-- A quoted text has no line feed in it, and no tab. -/
theorem not_mem_quoted {blank : Char} (is_blank : blank = '\t' ∨ blank = '\n')
    (text : List Char) : blank ∉ quoted text := by
  have other : blank ≠ doubleQuote := by rcases is_blank with rfl | rfl <;> decide
  intro member
  obtain ⟨c, -, inside⟩ : ∃ c ∈ text, blank ∈ quotedChar c := by
    simpa [quoted, other] using member
  exact (quotes_quotedChar c).not_mem is_blank inside

end DreamLexer.Text
