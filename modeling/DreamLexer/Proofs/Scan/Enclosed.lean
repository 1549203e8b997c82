import DreamLexer.Proofs.Lexeme.Nesting
import DreamLexer.Proofs.Scan.Failure
import Mathlib.Data.List.Forall2

/-!
# Literals and comments are read to their own end

A scanner in front of a quote reads up to the first copy of the quote that no backslash escapes, and
every text has a body that stands for it (`literal_exact`). In front of the opener of a comment it
reads up to the closer of that comment (`comment_exact`). If there is no such quote or closer, it
reads the text to its end and fails.
-/

namespace DreamLexer

namespace Literal

/-- The text behind an opening quote is a body, the closing quote and the text behind it. -/
structure Closes (quote : Quote) (text : List Char) (pieces : List LiteralPiece)
    (rest : List Char) : Prop where
  split : text = raw pieces ++ quote.char :: rest
  fits : ∀ p ∈ pieces, p.FitsIn quote

/-- The ways to write a character in a literal: backslashes and the quote are escaped, tabs and line
feeds may be. -/
inductive Writes (quote : Quote) : Char → LiteralPiece → Prop where
  | plain {c : Char} (slash : c ≠ '\\') (closes : c ≠ quote.char) : Writes quote c (.plain c)
  | escaped {c : Char} (special : c = '\\' ∨ c = quote.char) : Writes quote c (.escaped c)
  | tab : Writes quote '\t' (.escaped 't')
  | newline : Writes quote '\n' (.escaped 'n')

variable {quote : Quote} {text rest : List Char} {pieces : List LiteralPiece}

theorem closes_iff : Closes quote text pieces rest ↔ body? quote text = some (pieces, rest) := by
  rw [body?_eq_some_iff]
  exact ⟨fun known => ⟨known.split, known.fits⟩, fun known => ⟨known.1, known.2⟩⟩

theorem Closes.unique {pieces' : List LiteralPiece} {rest' : List Char}
    (closes : Closes quote text pieces rest) (closes' : Closes quote text pieces' rest') :
    pieces = pieces' ∧ rest = rest' := by
  have same := (closes_iff.1 closes).symm.trans (closes_iff.1 closes')
  exact Prod.mk.inj (Option.some.inj same)

/-- What is written for a character fits between the quotes and stands for it. -/
theorem Writes.spec {c : Char} {p : LiteralPiece} (writes : Writes quote c p) :
    p.FitsIn quote ∧ p.value = c := by
  cases writes with
  | plain slash closes => exact ⟨⟨closes, slash⟩, rfl⟩
  | escaped special =>
    have other : c ≠ 't' ∧ c ≠ 'n' := by
      rcases special with rfl | rfl
      · decide
      · cases quote <;> decide
    exact ⟨trivial, LiteralPiece.value_escaped other.1 other.2⟩
  | tab => exact ⟨trivial, rfl⟩
  | newline => exact ⟨trivial, rfl⟩

/-- A character's escape is a way to write it. -/
theorem writes_escape (quote : Quote) (c : Char) : Writes quote c (Item.escape quote c) := by
  unfold Item.escape
  by_cases special : c = '\\' ∨ c = quote.char
  · rw [if_pos special]
    exact .escaped special
  · rw [if_neg special]
    obtain ⟨slash, closes⟩ := not_or.1 special
    split
    next newline => exact newline ▸ .newline
    · split
      next tab => exact tab ▸ .tab
      next => exact .plain slash closes

/-- What is written for a text is a body that stands for it. -/
theorem closes_of_writes {payload : List Char} (rest : List Char)
    (writes : List.Forall₂ (Writes quote) payload pieces) :
    Closes quote (raw pieces ++ quote.char :: rest) pieces rest ∧ value pieces = payload := by
  induction writes with
  | nil => exact ⟨⟨rfl, List.forall_mem_nil _⟩, rfl⟩
  | cons first _ ih =>
    obtain ⟨fits, stands⟩ := first.spec
    obtain ⟨closes, payload_eq⟩ := ih
    refine ⟨⟨rfl, List.forall_mem_cons.2 ⟨fits, closes.fits⟩⟩, ?_⟩
    rw [← payload_eq, ← stands]
    rfl

end Literal

namespace Scanner

variable {o : Options} {s : Scanner} {c : Char} {rest : List Char}

/-- In front of a character that is no blank and no sign of a directive, a step reads a lexeme. -/
theorem step_of_isPlain (here : s.cursor.rest = c :: rest) (plain : IsPlain c) :
    s.step o =
      match Lexeme.read c rest with
      | .error fault => s.fail o fault
      | .ok r => s.place o r := by
  rw [step_of_ready (ready_of_isPlain here plain)]
  cases read : Lexeme.read c rest with
  | error fault => simp only [readLexeme, here, read]
  | ok r => simp only [readLexeme, here, read]

/-- A fault that is met at the end of the text leaves nothing of it. -/
theorem fail_of_readsToEnd {fault : Fault} (reads : fault.readsToEnd) :
    s.fail o fault = .ended [] (.failed (s.errorOf o fault))
      { s with cursor := s.cursor.pass o.effectiveTabWidth s.cursor.rest [] } := by
  rw [fail, if_pos reads]
  rfl

theorem errorOf_openString (o : Options) (s : Scanner) :
    s.errorOf o .openString =
      ⟨.unterminatedString, "Reached end of input while scanning a string literal.",
        s.cursor.point.advanceOver o.effectiveTabWidth s.cursor.rest⟩ := by
  rw [errorOf, Fault.error_of_arguments_nil rfl, if_pos rfl]
  rfl

theorem errorOf_openComment (o : Options) (s : Scanner) :
    s.errorOf o .openComment =
      ⟨.unterminatedComment,
        "Reached end of input while scanning a block comment; '*/' expected.",
        s.cursor.point⟩ := by
  rw [errorOf, Fault.error_of_arguments_nil rfl, if_neg (by decide)]
  rfl

theorem isPlain_quote (quote : Quote) : IsPlain quote.char := by
  cases quote <;> decide

/-- In front of a quote a scanner reads a literal, if there is one. -/
theorem read_quote (quote : Quote) (text : List Char) :
    Lexeme.read quote.char text = Lexeme.readLiteral quote text := by
  have plain : quote.char ≠ '\n' ∧ quote.char ≠ ' ' ∧ quote.char ≠ '/' := by
    cases quote <;> decide
  rw [Lexeme.read_eq_readToken plain.1 plain.2.1 (fun slash => absurd slash plain.2.2),
    Lexeme.readToken, Quote.ofChar?_char]

theorem readLiteral_of_closes {quote : Quote} {text : List Char} {pieces : List LiteralPiece}
    (closes : Literal.Closes quote text pieces rest) :
    Lexeme.readLiteral quote text = .ok ⟨.literal quote (Literal.value pieces),
      [quote.char] ++ Literal.raw pieces ++ [quote.char], rest⟩ := by
  rw [Lexeme.readLiteral, Literal.closes_iff.1 closes]

theorem readLiteral_of_not_closes {quote : Quote} {text : List Char}
    (open_literal : ¬ ∃ pieces rest, Literal.Closes quote text pieces rest) :
    Lexeme.readLiteral quote text = .error .openString := by
  cases body : Literal.body? quote text with
  | none => rw [Lexeme.readLiteral, body]
  | some pair => exact absurd ⟨pair.1, pair.2, Literal.closes_iff.2 body⟩ open_literal

/-- A literal is read just if the text behind its opening quote is a body, the quote and a rest. It
is read up to that quote, its payload is what the pieces of the body stand for, and there is no
second way to split the text. If there is no way, the scan fails at the end of the text. Something
can be written for every payload, and whatever is written for it is a body that stands for it. -/
theorem literal_exact {quote : Quote} {text : List Char}
    (here : s.cursor.rest = quote.char :: text) :
    ((∃ tokens next, s.step o = .placed tokens next) ↔
        ∃ pieces rest, Literal.Closes quote text pieces rest) ∧
      (∀ pieces rest, Literal.Closes quote text pieces rest →
        ∃ r, r = Reading.mk (.literal quote (Literal.value pieces))
            ([quote.char] ++ Literal.raw pieces ++ [quote.char]) rest ∧
          Lexeme.read quote.char text = .ok r ∧ s.step o = s.place o r) ∧
      (∀ pieces rest pieces' rest', Literal.Closes quote text pieces rest →
        Literal.Closes quote text pieces' rest' → pieces = pieces' ∧ rest = rest') ∧
      ((¬ ∃ pieces rest, Literal.Closes quote text pieces rest) →
        s.step o = .ended []
          (.failed ⟨.unterminatedString, "Reached end of input while scanning a string literal.",
            s.cursor.point.advanceOver o.effectiveTabWidth s.cursor.rest⟩)
          { s with cursor := s.cursor.pass o.effectiveTabWidth s.cursor.rest [] }) ∧
      (∀ payload, ∃ pieces, List.Forall₂ (Literal.Writes quote) payload pieces) ∧
      ∀ payload pieces rest, List.Forall₂ (Literal.Writes quote) payload pieces →
        Literal.Closes quote (Literal.raw pieces ++ quote.char :: rest) pieces rest ∧
          Literal.value pieces = payload := by
  have step : s.step o =
      match Lexeme.readLiteral quote text with
      | .error fault => s.fail o fault
      | .ok r => s.place o r := by
    rw [step_of_isPlain here (isPlain_quote quote), read_quote]
  refine ⟨⟨?_, ?_⟩, ?_, ?_, ?_, ?_, ?_⟩
  · intro placed
    by_contra open_literal
    obtain ⟨tokens, next, placed⟩ := placed
    rw [step, readLiteral_of_not_closes open_literal] at placed
    simp [fail] at placed
  · intro known
    obtain ⟨pieces, rest, closes⟩ := known
    rw [step, readLiteral_of_closes closes]
    exact ⟨_, _, rfl⟩
  · intro pieces rest closes
    refine ⟨_, rfl, ?_, ?_⟩
    · rw [read_quote, readLiteral_of_closes closes]
    · rw [step, readLiteral_of_closes closes]
  · intro pieces rest pieces' rest' closes closes'
    exact closes.unique closes'
  · intro open_literal
    rw [step, readLiteral_of_not_closes open_literal, ← errorOf_openString]
    exact fail_of_readsToEnd rfl
  · intro payload
    exact ⟨payload.map (Item.escape quote), List.forall₂_map_right_iff.2
      (List.forall₂_same.2 fun c _ => Literal.writes_escape quote c)⟩
  · intro payload pieces rest writes
    exact Literal.closes_of_writes rest writes

theorem read_opener (text : List Char) :
    Lexeme.read '/' ('*' :: text) =
      match Comment.interior? text with
      | none => .error .openComment
      | some (interior, behind) =>
        .ok ⟨.comment interior, ['/', '*'] ++ interior ++ ['*', '/'], behind⟩ := by
  cases found : Comment.interior? text <;> simp [Lexeme.read, Lexeme.readComment?, found]

theorem read_of_closing {text : List Char} {first : List Comment.Symbol}
    (closing : Comment.Closing text first rest) :
    Lexeme.read '/' ('*' :: text) =
      .ok ⟨.comment (first.dropLast.flatMap Comment.Symbol.raw),
        ['/', '*'] ++ first.flatMap Comment.Symbol.raw, rest⟩ := by
  obtain ⟨last, found⟩ := Comment.interior?_of_closing closing
  have whole : first = first.dropLast ++ [.closer] := (List.dropLast_append_getLast? _ last).symm
  have raw : first.flatMap Comment.Symbol.raw =
      first.dropLast.flatMap Comment.Symbol.raw ++ ['*', '/'] := by
    conv_lhs => rw [whole, List.flatMap_append]
    rfl
  rw [read_opener, found, raw]
  rfl

theorem read_of_no_surplus {text : List Char}
    (open_comment : ¬ ∃ first, first <+: Comment.symbols text ∧ Comment.Surplus first) :
    Lexeme.read '/' ('*' :: text) = .error .openComment := by
  rw [read_opener]
  cases found : Comment.interior? text with
  | none => rfl
  | some pair =>
    obtain ⟨s, closing, -⟩ := Comment.closing_of_interior? found
    exact absurd ⟨_, closing.starts, closing.surplus⟩ open_comment

theorem read_nested {inner : List Char}
    (h : Lexeme.read '/' ('*' :: inner ++ ['*', '/']) =
      .ok ⟨.comment inner, ['/', '*'] ++ inner ++ ['*', '/'], []⟩) :
    Lexeme.read '/' ('*' :: (['/', '*'] ++ inner ++ ['*', '/']) ++ ['*', '/']) =
      .ok ⟨.comment (['/', '*'] ++ inner ++ ['*', '/']),
        ['/', '*'] ++ (['/', '*'] ++ inner ++ ['*', '/']) ++ ['*', '/'], []⟩ := by
  rw [List.cons_append, read_opener] at h
  cases found : Comment.interior? (inner ++ ['*', '/']) with
  | none => simp [found] at h
  | some pair =>
    obtain ⟨interior, behind⟩ := pair
    obtain ⟨rfl, rfl⟩ : interior = inner ∧ behind = [] := by simpa [found] using h
    rw [List.cons_append, read_opener, Comment.interior?_nested found]

/-- A literal with an escaped quote, and one that is not closed. -/
theorem literal_exact_of_escaped_quote :
    (start "a.dm" ['\x27', 'a', '\\', '\x27', '\\', 't', '\x22', '\x27', ' ']).step .standard =
        (start "a.dm" ['\x27', 'a', '\\', '\x27', '\\', 't', '\x22', '\x27', ' ']).place .standard
          ⟨.literal .single ['a', '\x27', '\t', '\x22'],
            ['\x27', 'a', '\\', '\x27', '\\', 't', '\x22', '\x27'], [' ']⟩ ∧
      (start "a.dm" ['\x27', 'a', '\\', '\x27']).step .standard =
        .ended []
          (.failed ⟨.unterminatedString, "Reached end of input while scanning a string literal.",
            ⟨"a.dm", 1, 5⟩⟩)
          ⟨⟨[], ⟨"a.dm", 1, 5⟩⟩, .start⟩ := by
  constructor
  · have closes : Literal.Closes .single ['a', '\\', '\x27', '\\', 't', '\x22', '\x27', ' ']
        [.plain 'a', .escaped '\x27', .escaped 't', .plain '\x22'] [' '] :=
      Literal.closes_iff.2 (by decide)
    have exactly := @literal_exact .standard
      (start "a.dm" ['\x27', 'a', '\\', '\x27', '\\', 't', '\x22', '\x27', ' ']) .single _ rfl
    obtain ⟨r, rfl, -, step⟩ := exactly.2.1 _ _ closes
    exact step
  · have open_literal : ¬ ∃ pieces rest,
        Literal.Closes .single ['a', '\\', '\x27'] pieces rest := by
      intro known
      obtain ⟨pieces, rest, closes⟩ := known
      have missed : Literal.body? .single ['a', '\\', '\x27'] = none := by decide
      rw [Literal.closes_iff, missed] at closes
      simp at closes
    have exactly := @literal_exact .standard
      (start "a.dm" ['\x27', 'a', '\\', '\x27']) .single _ rfl
    have behind : (start "a.dm" ['\x27', 'a', '\\', '\x27']).cursor.point.advanceOver
        Options.standard.effectiveTabWidth ['\x27', 'a', '\\', '\x27'] = ⟨"a.dm", 1, 5⟩ := by
      decide
    rw [exactly.2.2.2.1 open_literal, Cursor.pass]
    simp only [start, Cursor.start] at behind ⊢
    rw [behind]

/-- A comment is read just if some of the first symbols behind its opener hold a closer too many. It
is read up to the end of the shortest list of them, and its interior is what stands before the last
of these, which is a closer. If there is no such list, the scan fails at the opener and leaves
nothing of the text. A comment that is its whole text can stand inside another one. The reader counts
the comments that are open, which takes no more than 32 bits. -/
theorem comment_exact {text : List Char} (here : s.cursor.rest = '/' :: '*' :: text) :
    ((∃ tokens next, s.step o = .placed tokens next) ↔
        ∃ first, first <+: Comment.symbols text ∧ Comment.Surplus first) ∧
      ((∃ first, first <+: Comment.symbols text ∧ Comment.Surplus first) →
        ∃ first rest, Comment.Closing text first rest) ∧
      (∀ first rest, Comment.Closing text first rest →
        first.getLast? = some .closer ∧
          ∃ r, r = Reading.mk (.comment (first.dropLast.flatMap Comment.Symbol.raw))
              (['/', '*'] ++ first.flatMap Comment.Symbol.raw) rest ∧
            Lexeme.read '/' ('*' :: text) = .ok r ∧ s.step o = s.place o r) ∧
      ((¬ ∃ first, first <+: Comment.symbols text ∧ Comment.Surplus first) →
        s.step o = .ended []
          (.failed ⟨.unterminatedComment,
            "Reached end of input while scanning a block comment; '*/' expected.",
            s.cursor.point⟩)
          { s with cursor := s.cursor.pass o.effectiveTabWidth s.cursor.rest [] }) ∧
      (∀ inner, Lexeme.read '/' ('*' :: inner ++ ['*', '/']) =
          .ok ⟨.comment inner, ['/', '*'] ++ inner ++ ['*', '/'], []⟩ →
        Lexeme.read '/' ('*' :: (['/', '*'] ++ inner ++ ['*', '/']) ++ ['*', '/']) =
          .ok ⟨.comment (['/', '*'] ++ inner ++ ['*', '/']),
            ['/', '*'] ++ (['/', '*'] ++ inner ++ ['*', '/']) ++ ['*', '/'], []⟩) ∧
      (s.cursor.rest.length < UInt32.size →
        Comment.countedInterior text = .ok (Comment.interior? text)) := by
  have step : s.step o =
      match Lexeme.read '/' ('*' :: text) with
      | .error fault => s.fail o fault
      | .ok r => s.place o r :=
    step_of_isPlain here (by decide)
  refine ⟨⟨?_, ?_⟩, ?_, ?_, ?_, fun inner => read_nested, ?_⟩
  · intro placed
    by_contra open_comment
    obtain ⟨tokens, next, placed⟩ := placed
    rw [step, read_of_no_surplus open_comment] at placed
    simp [fail] at placed
  · intro known
    obtain ⟨other, starts, surplus⟩ := known
    obtain ⟨first, rest, closing⟩ := Comment.exists_closing starts surplus
    rw [step, read_of_closing closing]
    exact ⟨_, _, rfl⟩
  · intro known
    obtain ⟨other, starts, surplus⟩ := known
    exact Comment.exists_closing starts surplus
  · intro first rest closing
    refine ⟨(Comment.interior?_of_closing closing).1, _, rfl, read_of_closing closing, ?_⟩
    rw [step, read_of_closing closing]
  · intro open_comment
    rw [step, read_of_no_surplus open_comment, ← errorOf_openComment]
    exact fail_of_readsToEnd rfl
  · intro short
    rw [here, List.length_cons, List.length_cons] at short
    exact Comment.countedInterior_eq (by omega)

/-- A comment in a comment whose star is taken only once, and one that is not closed. -/
theorem comment_exact_of_overlap :
    (start "a.dm" ['/', '*', '/', '*', '/', ' ', '*', '/', '*', '/', ' ']).step .standard =
        (start "a.dm" ['/', '*', '/', '*', '/', ' ', '*', '/', '*', '/', ' ']).place .standard
          ⟨.comment ['/', '*', '/', ' ', '*', '/'],
            ['/', '*', '/', '*', '/', ' ', '*', '/', '*', '/'], [' ']⟩ ∧
      Comment.countedInterior ['/', '*', '/', ' ', '*', '/', '*', '/', ' '] =
        .ok (some (['/', '*', '/', ' ', '*', '/'], [' '])) ∧
      (start "a.dm" ['/', '*', '/']).step .standard =
        .ended []
          (.failed ⟨.unterminatedComment,
            "Reached end of input while scanning a block comment; '*/' expected.",
            ⟨"a.dm", 1, 1⟩⟩)
          ⟨⟨[], ⟨"a.dm", 1, 4⟩⟩, .start⟩ := by
  have found : Comment.interior? ['/', '*', '/', ' ', '*', '/', '*', '/', ' '] =
      some (['/', '*', '/', ' ', '*', '/'], [' ']) := by decide
  have exactly := @comment_exact .standard
    (start "a.dm" ['/', '*', '/', '*', '/', ' ', '*', '/', '*', '/', ' ']) _ rfl
  refine ⟨?_, ?_, ?_⟩
  · obtain ⟨s, closing, interior⟩ := Comment.closing_of_interior? found
    obtain ⟨-, r, rfl, -, step⟩ := exactly.2.2.1 _ _ closing
    rw [step, List.dropLast_concat, List.flatMap_append, ← interior]
    rfl
  · rw [exactly.2.2.2.2.2 (by decide), found]
  · have open_comment : ¬ ∃ first, first <+: Comment.symbols ['/'] ∧ Comment.Surplus first := by
      intro known
      obtain ⟨first, starts, surplus⟩ := known
      exact Comment.interior?_ne_none starts surplus (by decide)
    have behind : (start "a.dm" ['/', '*', '/']).cursor.point.advanceOver
        Options.standard.effectiveTabWidth ['/', '*', '/'] = ⟨"a.dm", 1, 4⟩ := by decide
    have exactly' := @comment_exact .standard (start "a.dm" ['/', '*', '/']) _ rfl
    rw [exactly'.2.2.2.1 open_comment, Cursor.pass]
    simp only [start, Cursor.start] at behind ⊢
    rw [behind]
    rfl

end Scanner

end DreamLexer
