import DreamLexer.Token.Kind

/-!
# String literals

The body of a literal is read as a list of pieces, each a plain character or an escaped one. What
was read and what it stands for are both maps of that list.
-/

namespace DreamLexer

/-- The two quotes a literal can stand in. -/
inductive Quote where
  | double
  | single
deriving DecidableEq

namespace Quote

/-- The quote as a character. -/
def char : Quote → Char
  | .double => '\x22'
  | .single => '\x27'

/-- The quote that a character is. -/
def ofChar? (c : Char) : Option Quote :=
  if c = Quote.double.char then some .double
  else if c = Quote.single.char then some .single
  else none

/-- The kind of a literal in these quotes. -/
def kind : Quote → TokenKind
  | .double => .doubleQuoted
  | .single => .singleQuoted

end Quote

/-- A piece of a literal's body. -/
inductive LiteralPiece where
  | plain (c : Char)
  | escaped (c : Char)
deriving DecidableEq

namespace LiteralPiece

/-- The piece as it stands in the text. -/
def raw : LiteralPiece → List Char
  | .plain c => [c]
  | .escaped c => ['\\', c]

/-- The character the piece stands for. -/
def value : LiteralPiece → Char
  | .plain c => c
  | .escaped c => if c = 't' then '\t' else if c = 'n' then '\n' else c

end LiteralPiece

namespace Literal

/-- Reads on in the body of a literal up to its quote. `before` holds the pieces read, the last one
first. Gives the pieces and the text behind the quote, or nothing if the quote is missing. -/
def bodyFrom (quote : Quote) (before : List LiteralPiece) :
    List Char → Option (List LiteralPiece × List Char)
  | [] => none
  | c :: rest =>
    if c = quote.char then some (before.reverse, rest)
    else if c = '\\' then
      match rest with
      | [] => none
      | escaped :: rest => bodyFrom quote (.escaped escaped :: before) rest
    else bodyFrom quote (.plain c :: before) rest

/-- Reads a literal behind its opening quote. -/
def body? (quote : Quote) (text : List Char) : Option (List LiteralPiece × List Char) :=
  bodyFrom quote [] text

/-- The body as it stands in the text. -/
def raw (pieces : List LiteralPiece) : List Char := pieces.flatMap LiteralPiece.raw

/-- The text that the body stands for. -/
def value (pieces : List LiteralPiece) : List Char := pieces.map LiteralPiece.value

theorem bodyFrom_append {quote : Quote} {before pieces : List LiteralPiece}
    {text rest : List Char} (h : bodyFrom quote before text = some (pieces, rest)) :
    raw before.reverse ++ text = raw pieces ++ quote.char :: rest := by
  fun_induction bodyFrom quote before text with
  | case1 => simp at h
  | case2 before rest' =>
    obtain ⟨rfl, rfl⟩ := by simpa using h
    rfl
  | case3 => simp at h
  | case4 before escaped rest' _ ih =>
    rw [← ih h]
    simp [raw, LiteralPiece.raw]
  | case5 before c rest' _ _ ih =>
    rw [← ih h]
    simp [raw, LiteralPiece.raw]

/-- The body, the closing quote and the text behind it make up the text. -/
theorem body?_append {quote : Quote} {pieces : List LiteralPiece} {text rest : List Char}
    (h : body? quote text = some (pieces, rest)) : text = raw pieces ++ quote.char :: rest := by
  simpa [raw] using bodyFrom_append h

end Literal

end DreamLexer
