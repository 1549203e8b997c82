import DreamLexer.Proofs.Layout.Handed
import DreamLexer.Proofs.Scan.LineStart
import Mathlib.Control.Monad.Basic

/-!
# Nothing lost, invented or misread

A unit that lexes falls into stretches of text. A stretch either stands for one token, and is then
spelled as that token's kind asks, or is one of the fillers between tokens: blanks and linemarkers.
`Stretch.Fits` is the grammar of one stretch between its neighbours, and `source_covered` says that
the stretches make up the text and their tokens the stream, in order.
-/

namespace DreamLexer

/-- A stretch of text and the token that it stands for, if there is one. -/
structure Stretch where
  raw : List Char
  token? : Option Token
deriving DecidableEq

namespace Stretch

/-- The text that stretches make up. -/
def text (stretches : List Stretch) : List Char := stretches.flatMap raw

/-- Whether a line of the text can start behind `before`. -/
def StartsLine (before : List Char) : Prop := before = [] ∨ before.getLast? = some '\n'

/-- The stretches that may stand between `before` and `behind`. -/
inductive Fits (before behind : List Char) : Stretch → Prop where
  | blanks {raw : List Char} (blank : ∀ c ∈ raw, c = '\t' ∨ c = ' ' ∨ c = '\r') :
      Fits before behind ⟨raw, none⟩
  /-- A whole line that reads as a linemarker. Only the last line may lack its line feed. -/
  | marker {line ending : List Char} {m : Linemarker} (starts : StartsLine before)
      (inside : '\n' ∉ line) (parsed : Linemarker.parse? line = some m)
      (ends : ending = ['\n'] ∨ ending = [] ∧ behind = []) :
      Fits before behind ⟨line ++ ending, none⟩
  | newline {raw : List Char} (breaks : raw = ['\n'] ∨ raw = [';']) :
      Fits before behind ⟨raw, some .newline⟩
  /-- A word that reaches as far as it can, to both sides. -/
  | word {raw : List Char} {kind : TokenKind} {span : Span} (filled : raw ≠ [])
      (inside : ∀ c ∈ raw, Lexeme.isWordPart c)
      (last : ∀ c, before.getLast? = some c → ¬ Lexeme.isWordPart c)
      (next : Lexeme.NextIs (fun c => ¬ Lexeme.isWordPart c) behind)
      (kinds : kind = .ident ∨ TokenKind.ofReserved? (String.ofList raw) = some kind) :
      Fits before behind ⟨raw, some ⟨kind, some (String.ofList raw), some span⟩⟩
  | lineComment {text : List Char} {span : Span} (inside : '\n' ∉ text)
      (next : Lexeme.NextIs (· = '\n') behind) :
      Fits before behind
        ⟨['/', '/'] ++ text, some ⟨.comment, some (String.ofList text), some span⟩⟩
  /-- A block comment in which every comment that opens closes, with the last two characters
  closing the outermost one. -/
  | blockComment {text : List Char} {span : Span} (encloses : Comment.Encloses text) :
      Fits before behind
        ⟨['/', '*'] ++ text ++ ['*', '/'], some ⟨.comment, some (String.ofList text), some span⟩⟩
  | literal {quote : Quote} {pieces : List LiteralPiece} {span : Span}
      (fits : ∀ p ∈ pieces, p.FitsIn quote) :
      Fits before behind
        ⟨[quote.char] ++ Literal.raw pieces ++ [quote.char],
          some ⟨quote.kind, some (String.ofList (Literal.value pieces)), some span⟩⟩
  /-- The longest spelling of the table that the text goes on with. A slash opens no comment. -/
  | punctuation {raw : List Char} {kind : TokenKind} {span : Span}
      (member : (raw, kind) ∈ TokenKind.punctuation)
      (longest : ∀ spelling other, (spelling, other) ∈ TokenKind.punctuation →
        spelling <+: raw ++ behind → spelling.length ≤ raw.length)
      (slash : kind = .slash → Lexeme.NextIs (fun c => c ≠ '/' ∧ c ≠ '*') behind) :
      Fits before behind ⟨raw, some ⟨kind, none, some span⟩⟩

end Stretch

namespace Piece

/-- The token of the piece, new lines included. -/
def handsOut? (o : Options) : Piece → Option Token
  | .lexeme _ .lineBreak _ => some .newline
  | .lexeme _ .separator _ => some .newline
  | p => p.token? o

/-- The piece as a stretch of the text. -/
def stretch (o : Options) (p : Piece) : Stretch := ⟨p.raw, p.handsOut? o⟩

variable {o : Options} {p : Piece}

end Piece

namespace Layout

variable {o : Options} {p : Piece}

end Layout

variable {o : Options} {s t : Scanner} {p : Piece} {before behind : List Char}

/-- A lexeme is spelled as its token asks. -/
theorem Lexeme.Spelled.fits {lexeme : Lexeme} {raw : List Char} {span : Span}
    (comments : o.emitComments = true) (spelled : lexeme.Spelled raw behind)
    (seam : ∀ c, before.getLast? = some c → Lexeme.isWordPart c →
      Lexeme.NextIs (fun d => ¬ Lexeme.isWordPart d) (raw ++ behind)) :
    (Piece.stretch o (.lexeme raw lexeme span)).Fits before behind := by
  cases lexeme with
  | lineBreak => exact .newline (.inl spelled)
  | separator => exact .newline (.inr spelled)
  | comment text =>
    have own : Piece.stretch o (.lexeme raw (.comment text) span) =
        ⟨raw, some ⟨.comment, some (String.ofList text), some span⟩⟩ := by
      simp [Piece.stretch, Piece.handsOut?, Piece.token?, Piece.raw, Lexeme.token?, comments]
    rw [own]
    rcases spelled with ⟨rfl, inside, next⟩ | ⟨rfl, encloses⟩
    · exact .lineComment inside next
    · exact .blockComment encloses
  | word text =>
    obtain ⟨rfl, filled, inside, next⟩ := spelled
    refine .word filled inside ?_ next ?_
    · intro c last part
      obtain ⟨d, tail, rfl⟩ := List.exists_cons_of_ne_nil filled
      exact Lexeme.nextIs_cons.1 (seam c last part) (inside d (by simp))
    · by_cases reserved : o.keywords
      · cases found : TokenKind.ofReserved? (String.ofList raw) with
        | none => simp [reserved]
        | some kind => simpa [reserved] using .inr found
      · simp [reserved]
  | literal quote text =>
    obtain ⟨pieces, rfl, rfl, fits⟩ := spelled
    exact .literal fits
  | punctuation kind =>
    obtain ⟨-, member, longest, slash⟩ := spelled
    exact .punctuation member longest slash

/-- What a move passes fits between what was passed before and what is left. -/
theorem Move.fits (comments : o.emitComments = true) (move : Move o s p t)
    (steady : s.InStep before) : (p.stretch o).Fits before t.cursor.rest := by
  cases move with
  | @marker c l m stands parsed =>
    rw [Cursor.atDirective, Bool.and_eq_true, beq_iff_eq] at stands
    have starts : Stretch.StartsLine before := by
      refine (steady.line_start stands.1).resolve_left ?_
      intro nothing
      rw [show c.rest = [] from nothing] at stands
      simp at stands
    have inside : '\n' ∉ c.line := by
      intro member
      simpa using List.all_eq_true.1 List.all_takeWhile _ member
    refine .marker starts inside parsed ?_
    have stops := Lexeme.nextIs_dropWhile (· != '\n') c.rest
    cases left : c.rest.dropWhile (· != '\n') with
    | nil => exact .inr ⟨rfl, by simp [Cursor.linesBehind, left]⟩
    | cons d others =>
      rw [left, Lexeme.nextIs_cons] at stops
      obtain rfl : d = '\n' := by simpa using stops
      exact .inl rfl
  | blanks clear =>
    refine .blanks ?_
    intro c member
    have passed := List.all_eq_true.1 List.all_takeWhile c member
    simp only [Scanner.isPassed, Bool.or_eq_true, Bool.and_eq_true, beq_iff_eq] at passed
    rcases passed with (tab | cr) | ⟨space, -⟩
    · exact .inl tab
    · exact .inr (.inr cr)
    · exact .inr (.inl space)
  | lexeme spelled covers => exact spelled.fits comments steady.seam

end DreamLexer
