import DreamLexer.Lexer.Literal

/-!
# Bodies of string literals

A text starts with the body of a literal and its closing quote in at most one way, and the reader
finds it: `body?_eq_some_iff`.
-/

namespace DreamLexer

theorem Quote.char_ne_backslash (quote : Quote) : quote.char ≠ '\\' := by
  cases quote <;> decide

theorem Quote.ofChar?_char (quote : Quote) : Quote.ofChar? quote.char = some quote := by
  cases quote <;> rfl

/-- Whether the piece may stand between these quotes: a plain one neither ends the literal nor
starts an escape. -/
def LiteralPiece.FitsIn (quote : Quote) : LiteralPiece → Prop
  | .plain c => c ≠ quote.char ∧ c ≠ '\\'
  | .escaped _ => True

/-- An escaped character stands for itself, unless a tab or a line feed is spelled with it. -/
theorem LiteralPiece.value_escaped {c : Char} (tab : c ≠ 't') (newline : c ≠ 'n') :
    (escaped c).value = c := by
  rw [value, if_neg tab, if_neg newline]

namespace Literal

@[simp] theorem raw_nil : raw [] = [] := rfl

@[simp] theorem raw_plain_cons (c : Char) (more : List LiteralPiece) :
    raw (.plain c :: more) = c :: raw more := rfl

@[simp] theorem raw_escaped_cons (c : Char) (more : List LiteralPiece) :
    raw (.escaped c :: more) = '\\' :: c :: raw more := rfl

variable {quote : Quote} {text rest : List Char}

/-- Reading on behind the pieces in `before` finds the pieces that are left. -/
theorem bodyFrom_eq_some_iff {before pieces : List LiteralPiece} :
    bodyFrom quote before text = some (pieces, rest) ↔
      ∃ more, text = raw more ++ quote.char :: rest ∧ pieces = before.reverse ++ more ∧
        ∀ p ∈ more, p.FitsIn quote := by
  fun_induction bodyFrom quote before text with
  | case1 => simp
  | case2 before rest' =>
    constructor
    · rintro ⟨⟩
      exact ⟨[], rfl, by simp, by simp⟩
    · intro known
      rcases known with ⟨more, same, rfl, fits⟩
      cases more with
      | nil => simp_all
      | cons p more =>
        cases p with
        | plain c =>
          obtain ⟨rfl, -⟩ := by simpa using same
          exact absurd rfl (fits (.plain quote.char) (by simp)).1
        | escaped c =>
          obtain ⟨slash, -⟩ := by simpa using same
          exact absurd slash quote.char_ne_backslash
  | case3 before closes =>
    constructor
    · rintro ⟨⟩
    · intro known
      rcases known with ⟨more, same, -, fits⟩
      cases more with
      | nil => simp_all
      | cons p more => cases p <;> simp at same
  | case4 before escaped rest' closes ih =>
    rw [ih]
    constructor
    · intro known
      rcases known with ⟨more, rfl, rfl, fits⟩
      refine ⟨.escaped escaped :: more, by simp, by simp, ?_⟩
      exact List.forall_mem_cons.2 ⟨trivial, fits⟩
    · intro known
      rcases known with ⟨more, same, rfl, fits⟩
      cases more with
      | nil => exact absurd (List.cons.inj same).1 closes
      | cons p more =>
        cases p with
        | plain c =>
          obtain ⟨rfl, -⟩ := by simpa using same
          exact absurd rfl (fits (.plain '\\') (by simp)).2
        | escaped c =>
          obtain ⟨rfl, tail⟩ := by simpa using same
          exact ⟨more, tail, by simp, (List.forall_mem_cons.1 fits).2⟩
  | case5 before c rest' closes escapes ih =>
    rw [ih]
    constructor
    · intro known
      rcases known with ⟨more, rfl, rfl, fits⟩
      refine ⟨.plain c :: more, by simp, by simp, ?_⟩
      exact List.forall_mem_cons.2 ⟨⟨closes, escapes⟩, fits⟩
    · intro known
      rcases known with ⟨more, same, rfl, fits⟩
      cases more with
      | nil => exact absurd (List.cons.inj same).1 closes
      | cons p more =>
        cases p with
        | plain d =>
          obtain ⟨rfl, tail⟩ := by simpa using same
          exact ⟨more, tail, by simp, (List.forall_mem_cons.1 fits).2⟩
        | escaped d => exact absurd (List.cons.inj same).1 escapes

/-- The body of a literal is what stands before the first quote that no backslash escapes. -/
theorem body?_eq_some_iff {pieces : List LiteralPiece} :
    body? quote text = some (pieces, rest) ↔
      text = raw pieces ++ quote.char :: rest ∧ ∀ p ∈ pieces, p.FitsIn quote := by
  rw [body?, bodyFrom_eq_some_iff]
  constructor
  · intro known
    rcases known with ⟨more, same, rfl, fits⟩
    exact ⟨same, fits⟩
  · intro known
    rcases known with ⟨same, fits⟩
    exact ⟨pieces, same, rfl, fits⟩

end Literal

end DreamLexer
