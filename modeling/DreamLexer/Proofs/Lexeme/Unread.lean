import DreamLexer.Proofs.Lexeme.Grammar

/-!
# What cannot be read

A reader gives up for one of four reasons: a space stands in the indentation, a comment or a literal
is not closed, or nothing starts with the character. `unread_of_read` says which fault tells what
about the text.
-/

namespace DreamLexer

namespace Comment

/-- A comment is not closed just if the comments that it opens never come to an end. -/
theorem interiorFrom_eq_none_iff {nested : Nat} {before text : List Char} :
    interiorFrom nested before text = none ↔ NeverBelow nested (symbols text) := by
  fun_induction interiorFrom nested before text with
  | case1 => simpa [symbols] using neverBelow_nil
  | case2 nested before rest ih => rw [ih, symbols, neverBelow_opener_cons]
  | case3 before rest => simpa [symbols] using not_neverBelow_closer_cons
  | case4 before rest outer ih => rw [ih, symbols, neverBelow_closer_cons]
  | case5 nested before c rest no_opener no_closer ih =>
    rw [ih, symbols.eq_4 _ _ no_opener no_closer, neverBelow_plain_cons]

/-- From its opener on, a comment that is not closed has more openers than closers. -/
theorem count_lt_of_interior?_eq_none {text : List Char} (h : interior? text = none) :
    ∀ first, first <+: symbols ('/' :: '*' :: text) → first ≠ [] →
      first.count .closer < first.count .opener := by
  have below : NeverBelow 0 (symbols text) := interiorFrom_eq_none_iff.1 h
  intro first starts filled
  rw [symbols] at starts
  rcases List.prefix_cons_iff.1 starts with rfl | ⟨tail, rfl, inside⟩
  · exact absurd rfl filled
  · have bound := below tail inside
    rw [List.count_cons_of_ne (by decide), List.count_cons_self]
    omega

end Comment

namespace Literal

/-- The characters that no backslash escapes. A backslash escapes the character behind it. -/
def unescaped : List Char → List Char
  | [] => []
  | [c] => if c = '\\' then [] else [c]
  | c :: d :: rest => if c = '\\' then unescaped rest else c :: unescaped (d :: rest)

theorem unescaped_backslash (c : Char) (rest : List Char) :
    unescaped ('\\' :: c :: rest) = unescaped rest := by
  rw [unescaped, if_pos rfl]

theorem unescaped_plain {c : Char} (rest : List Char) (plain : c ≠ '\\') :
    unescaped (c :: rest) = c :: unescaped rest := by
  cases rest with
  | nil => simp [unescaped, plain]
  | cons d rest => rw [unescaped, if_neg plain]

/-- A literal is not closed just if every copy of its quote is escaped. -/
theorem bodyFrom_eq_none_iff {quote : Quote} {before : List LiteralPiece} {text : List Char} :
    bodyFrom quote before text = none ↔ quote.char ∉ unescaped text := by
  fun_induction bodyFrom quote before text with
  | case1 => simp [unescaped]
  | case2 before rest =>
    rw [unescaped_plain rest quote.char_ne_backslash]
    simp
  | case3 before closes => simp [unescaped]
  | case4 before escaped rest closes ih => rw [ih, unescaped_backslash]
  | case5 before c rest closes escapes ih =>
    rw [ih, unescaped_plain rest escapes, List.mem_cons, not_or]
    exact (and_iff_right (Ne.symm closes)).symm

end Literal

namespace Lexeme

/-- The faults and what they tell about a text. -/
inductive Unread (c : Char) (rest : List Char) : Fault → Prop where
  | space (same : c = ' ') : Unread c rest .spaceInIndentation
  | comment {behind : List Char} (opens : c :: rest = '/' :: '*' :: behind)
      (stays_open : ∀ first, first <+: Comment.symbols (c :: rest) → first ≠ [] →
        first.count .closer < first.count .opener) : Unread c rest .openComment
  | literal {quote : Quote} (opens : c = quote.char)
      (stays_open : quote.char ∉ Literal.unescaped rest) : Unread c rest .openString
  | character (newline : c ≠ '\n') (space : c ≠ ' ') (quoted : ∀ quote : Quote, c ≠ quote.char)
      (part : isWordPart c = false)
      (unspelled : ∀ spelling kind, (spelling, kind) ∈ TokenKind.punctuation →
        ¬ spelling <+: c :: rest) : Unread c rest (.character c)

variable {c : Char} {rest : List Char} {fault : Fault}

theorem unread_of_readPunctuation (newline : c ≠ '\n') (space : c ≠ ' ')
    (quoted : Quote.ofChar? c = none) (part : isWordPart c = false)
    (h : readPunctuation c rest = .error fault) : Unread c rest fault := by
  unfold readPunctuation at h
  split at h
  next => simp at h
  next none_fits =>
    obtain rfl := by simpa using h
    refine .character newline space ?_ part ?_
    · intro quote same
      rw [same, Quote.ofChar?_char] at quoted
      simp at quoted
    · intro spelling kind member starts
      exact List.find?_eq_none.1 none_fits _ member (List.isPrefixOf_iff_prefix.2 starts)

theorem unread_of_readToken (newline : c ≠ '\n') (space : c ≠ ' ')
    (h : readToken c rest = .error fault) : Unread c rest fault := by
  unfold readToken at h
  cases quoted : Quote.ofChar? c with
  | some quote =>
    simp only [quoted, readLiteral] at h
    cases body : Literal.body? quote rest with
    | some found => simp [body] at h
    | none =>
      obtain rfl : Fault.openString = fault := by simpa [body] using h
      exact .literal (ofChar?_char quoted).symm (Literal.bodyFrom_eq_none_iff.1 body)
  | none =>
    simp only [quoted] at h
    cases part : isWordPart c with
    | true => simp [part] at h
    | false =>
      rw [part] at h
      exact unread_of_readPunctuation newline space quoted part h

/-- What the reader cannot read is at fault as it says. -/
theorem unread_of_read (h : read c rest = .error fault) : Unread c rest fault := by
  unfold read at h
  by_cases newline : c = '\n'
  · simp [newline] at h
  rw [if_neg newline] at h
  by_cases space : c = ' '
  · obtain rfl : Fault.spaceInIndentation = fault := by simpa [space] using h
    exact .space space
  rw [if_neg space] at h
  split at h
  next second behind =>
    unfold readComment? at h
    by_cases star : second = '*'
    · subst star
      cases found : Comment.interior? behind with
      | some pair => simp [found] at h
      | none =>
        obtain rfl : Fault.openComment = fault := by simpa [found] using h
        exact .comment rfl (Comment.count_lt_of_interior?_eq_none found)
    · rw [if_neg star] at h
      by_cases slash : second = '/'
      · simp [slash] at h
      · rw [if_neg slash] at h
        exact unread_of_readToken newline space h
  next => exact unread_of_readToken newline space h

end Lexeme

end DreamLexer
