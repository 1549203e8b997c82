import DreamLexer.Lexer.Comment
import DreamLexer.Lexer.Fault
import DreamLexer.Lexer.Literal
import DreamLexer.Lexer.Options
import DreamLexer.Token.Basic

/-!
# Lexemes

A lexeme is one meaningful piece of a unit's text. Reading one gives the characters it took, which
together with the text left over are the text that was there: `read_append`.
-/

namespace DreamLexer

/-- A meaningful piece of a text. -/
inductive Lexeme where
  | lineBreak
  /-- A semicolon, which ends a line's statement but not the line. -/
  | separator
  | comment (text : List Char)
  | word (text : List Char)
  | literal (quote : Quote) (text : List Char)
  | punctuation (kind : TokenKind)
deriving DecidableEq

/-- A lexeme that was read, the characters it took and the text behind it. -/
structure Reading where
  lexeme : Lexeme
  raw : List Char
  rest : List Char
deriving DecidableEq

namespace Lexeme

/-- The characters of words: letters and digits of ASCII and the underscore. -/
def isWordPart (c : Char) : Bool := c.isAlphanum || c == '_'

/-- Reads a comment, given the character behind its slash. -/
def readComment? (second : Char) (rest : List Char) : Option (Except Fault Reading) :=
  if second = '*' then
    match Comment.interior? rest with
    | none => some (.error .openComment)
    | some (interior, behind) =>
      some (.ok ⟨.comment interior, ['/', '*'] ++ interior ++ ['*', '/'], behind⟩)
  else if second = '/' then
    some (.ok ⟨.comment (Comment.lineRest rest), ['/', '/'] ++ Comment.lineRest rest,
      rest.dropWhile (· != '\n')⟩)
  else none

/-- Reads a string literal behind its opening quote. -/
def readLiteral (quote : Quote) (rest : List Char) : Except Fault Reading :=
  match Literal.body? quote rest with
  | none => .error .openString
  | some (pieces, behind) =>
    .ok ⟨.literal quote (Literal.value pieces),
      [quote.char] ++ Literal.raw pieces ++ [quote.char], behind⟩

/-- The lexeme of a punctuation. -/
def ofPunctuation (kind : TokenKind) : Lexeme :=
  if kind = .newline then .separator else .punctuation kind

/-- Reads a punctuation: the first of the table that the text starts with. -/
def readPunctuation (c : Char) (rest : List Char) : Except Fault Reading :=
  match TokenKind.punctuation.find? fun (spelling, _) => spelling.isPrefixOf (c :: rest) with
  | some (spelling, kind) => .ok ⟨ofPunctuation kind, spelling, (c :: rest).drop spelling.length⟩
  | none => .error (.character c)

/-- Reads a lexeme that starts like neither a line break nor a comment. -/
def readToken (c : Char) (rest : List Char) : Except Fault Reading :=
  match Quote.ofChar? c with
  | some quote => readLiteral quote rest
  | none =>
    if isWordPart c then
      .ok ⟨.word (c :: rest.takeWhile isWordPart), c :: rest.takeWhile isWordPart,
        rest.dropWhile isWordPart⟩
    else readPunctuation c rest

/-- Reads the lexeme that a text starts with. Blanks that may be passed over are no longer there,
so a space stands in the indentation. -/
def read (c : Char) (rest : List Char) : Except Fault Reading :=
  if c = '\n' then .ok ⟨.lineBreak, [c], rest⟩
  else if c = ' ' then .error .spaceInIndentation
  else
    match c, rest with
    | '/', second :: behind => (readComment? second behind).getD (readToken c rest)
    | _, _ => readToken c rest

/-- The kind and payload of the token a lexeme stands for. A line break or separator stands for a
new line, which the layout hands out. -/
def token? (o : Options) (span : Span) : Lexeme → Option Token
  | .lineBreak => none
  | .separator => none
  | .comment text =>
    if o.emitComments then some ⟨.comment, some (String.ofList text), some span⟩ else none
  | .word text =>
    let spelling := String.ofList text
    let kind := if o.keywords then (TokenKind.ofReserved? spelling).getD .ident else .ident
    some ⟨kind, some spelling, some span⟩
  | .literal quote text => some ⟨quote.kind, some (String.ofList text), some span⟩
  | .punctuation kind => some ⟨kind, none, some span⟩

/-- The reading takes at least one character, and nothing is lost. -/
structure Splits (r : Reading) (text : List Char) : Prop where
  append : r.raw ++ r.rest = text
  ne_nil : r.raw ≠ []

theorem readComment?_splits {second : Char} {rest : List Char} {r : Reading}
    (h : readComment? second rest = some (.ok r)) : Splits r ('/' :: second :: rest) := by
  unfold readComment? at h
  split at h
  next hs =>
    subst hs
    split at h
    · simp at h
    next interior behind hi =>
      obtain rfl := by simpa using h
      exact ⟨by simp [Comment.interior?_append hi], by simp⟩
  next =>
    split at h
    next hs =>
      subst hs
      obtain rfl := by simpa using h
      exact ⟨by simp [Comment.lineRest], by simp⟩
    next => simp at h

theorem readLiteral_splits {quote : Quote} {rest : List Char} {r : Reading}
    (h : readLiteral quote rest = .ok r) : Splits r (quote.char :: rest) := by
  unfold readLiteral at h
  split at h
  · simp at h
  next pieces behind hb =>
    obtain rfl := by simpa using h
    exact ⟨by simp [Literal.body?_append hb], by simp⟩

theorem readPunctuation_splits {c : Char} {rest : List Char} {r : Reading}
    (h : readPunctuation c rest = .ok r) : Splits r (c :: rest) := by
  unfold readPunctuation at h
  split at h
  next spelling kind hf =>
    obtain rfl := by simpa using h
    have starts := List.find?_some hf
    obtain ⟨behind, hb⟩ := List.isPrefixOf_iff_prefix.1 starts
    refine ⟨by simp [← hb], ?_⟩
    have member := List.mem_of_find?_eq_some hf
    intro empty
    simp [TokenKind.punctuation] at member
    simp_all
  next => simp at h

theorem ofChar?_char {c : Char} {quote : Quote} (h : Quote.ofChar? c = some quote) :
    quote.char = c := by
  unfold Quote.ofChar? at h
  split at h
  · simp_all
  next =>
    split at h
    · simp_all
    next => simp at h

theorem readToken_splits {c : Char} {rest : List Char} {r : Reading}
    (h : readToken c rest = .ok r) : Splits r (c :: rest) := by
  unfold readToken at h
  split at h
  next quote hq => exact ofChar?_char hq ▸ readLiteral_splits h
  next =>
    split at h
    next =>
      obtain rfl := by simpa using h
      exact ⟨by simp, by simp⟩
    next => exact readPunctuation_splits h

theorem read_splits {c : Char} {rest : List Char} {r : Reading} (h : read c rest = .ok r) :
    Splits r (c :: rest) := by
  unfold read at h
  split at h
  next =>
    obtain rfl := by simpa using h
    exact ⟨by simp, by simp⟩
  next =>
    split at h
    · simp at h
    next =>
      split at h
      next second behind _ _ =>
        cases hc : readComment? second behind with
        | none =>
          rw [hc] at h
          exact readToken_splits h
        | some result =>
          rw [hc] at h
          simp only [Option.getD_some] at h
          exact readComment?_splits (hc.trans (congrArg some h))
      next => exact readToken_splits h

/-- What a lexeme took and what it left make up the text. -/
theorem read_append {c : Char} {rest : List Char} {r : Reading} (h : read c rest = .ok r) :
    r.raw ++ r.rest = c :: rest :=
  (read_splits h).append

/-- A lexeme takes at least one character. -/
theorem length_rest_lt {c : Char} {rest : List Char} {r : Reading} (h : read c rest = .ok r) :
    r.rest.length < (c :: rest).length := by
  have whole := congrArg List.length (read_append h)
  have := List.length_pos_iff.2 (read_splits h).ne_nil
  simp only [List.length_append] at whole
  omega

end Lexeme

end DreamLexer
