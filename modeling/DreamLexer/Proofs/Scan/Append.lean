import DreamLexer.Proofs.Protocol
import DreamLexer.Proofs.Scan.Seam

/-!
# Lexing a text in parts

A text may be cut in front of a line, between two lexemes: `lexUnit_append` says that lexing it is
lexing the first part, with its blocks left open, and going on over the second part from where that
ended. All that is carried over is the position, the depth and whether the last token was a new line.
-/

namespace DreamLexer

/-- The options with the blocks left open at the end. -/
def Options.leaveOpen (o : Options) : Options := { o with closeBlocksAtEof := false }

/-- A lexer over more text, which goes on where another one stopped at the end of a line. -/
def Lexer.resume (o : Options) (l : Lexer) (text : String) : Lexer where
  options := o
  scanner := ⟨⟨text.toList, l.position⟩, ⟨some 0, l.depth, l.scanner.layout.afterNewline⟩⟩
  queue := []
  ending := none
  told := l.told

variable {o : Options} {s t : Scanner} {p : Piece} {pieces : List Piece}

/-- Blocks are closed at the end only, so a move does not depend on whether they are. -/
theorem Move.leaveOpen (move : Move o s p t) : Move o.leaveOpen s p t := by
  cases move with
  | marker stands parsed => exact .marker stands parsed
  | blanks clear => exact .blanks clear
  | lexeme spelled covers => exact .lexeme spelled covers

theorem Moves.leaveOpen (moves : Moves o s pieces t) : Moves o.leaveOpen s pieces t := by
  induction moves with
  | refl s => exact .refl s
  | head move _ ih => exact .head move.leaveOpen ih

theorem Layout.tokens_leaveOpen (o : Options) (l : Layout) (pieces : List Piece) :
    l.tokens o.leaveOpen pieces = l.tokens o pieces := by
  have read (l : Layout) (p : Piece) : l.read o.leaveOpen p = l.read o p := by
    cases p with
    | marker raw m => rfl
    | blanks raw => rfl
    | lexeme raw lexeme span => cases lexeme <;> rfl
  induction pieces generalizing l with
  | nil => rfl
  | cons p pieces ih => rw [tokens_cons, tokens_cons, read, ih]

/-- What a scan passes to the end of a first part, it passes in front of any second part. -/
theorem run_append {unit : String} {first : List Char} {stop : Scanner}
    (moves : Moves o (.start unit first) pieces stop) (done : stop.cursor.rest = [])
    (cut : first = [] ∨ first.getLast? = some '\n') (second : List Char) :
    stop.layout.indent = some 0 ∧
      (Scanner.start unit (first ++ second)).run o =
        { (stop.before second).run o with
          tokens := Layout.start.tokens o pieces ++ ((stop.before second).run o).tokens } := by
  have whole : first = Piece.text pieces := by
    simpa [done, Scanner.start, Cursor.start] using moves.rest_eq
  subst whole
  obtain ⟨filled, moves', -, -, same⟩ : ∃ filled,
      Moves o (.start unit (Piece.text pieces ++ second)) filled (stop.before second) ∧
        Piece.text filled = Piece.text pieces ∧ (∀ p ∈ filled, p.raw ≠ []) ∧
        Layout.start.tokens o filled = Layout.start.tokens o pieces :=
    moves.before (cut.imp_right .inl)
  have counted : (Scanner.start unit (Piece.text pieces ++ second)).cursor.point.Counted :=
    Nat.le_refl 1
  constructor
  · exact (moves.atLineStart (Scanner.inStep_start unit _) ⟨rfl, rfl⟩ cut).unindented
  · rw [moves'.run_eq counted, ← same]
    rfl

/-- What a scan passes to the end of a text, it hands out with the blocks left open. -/
theorem run_leaveOpen {unit : String} {text : List Char}
    (moves : Moves o (.start unit text) pieces s) (done : s.cursor.rest = []) :
    (Scanner.start unit text).run o.leaveOpen =
      ⟨Layout.start.tokens o pieces, .finished, s⟩ := by
  have counted : (Scanner.start unit text).cursor.point.Counted := Nat.le_refl 1
  rw [moves.leaveOpen.run_eq counted, Scanner.run_of_end done, Layout.tokens_leaveOpen]
  simp [Layout.finish, Options.leaveOpen, Scanner.start]

/-- A text that is cut in front of a line may be lexed in two parts. The first part gives its
tokens with the blocks left open. It ends with nothing queued and the indentation at its start, so
that the second part goes on from its position, its depth and its last new line alone, and the
whole text gives the tokens of both parts, or the error that the second one gives. -/
theorem lexUnit_append {unit first : String} {told : Diagnostics} {tokens : List Token}
    (cut : first.toList = [] ∨ first.toList.getLast? = some '\n')
    (h : (lexUnit o unit first told).1 = .ok tokens) (second : String) :
    ∃ before stopped,
      (Lexer.start o.leaveOpen unit first told).drain = (before, none, stopped) ∧
      lexUnit o.leaveOpen unit first told = (.ok before, told) ∧
      stopped.queue = [] ∧ stopped.scanner.cursor.rest = [] ∧
      stopped.scanner.layout.indent = some 0 ∧
      lexUnit o unit (first ++ second) told =
        match (stopped.resume o second).drain with
        | (behind, none, after) => (.ok (before ++ behind), after.told)
        | (_, some e, after) => (.error e, after.told) := by
  obtain ⟨stop, moves, done, -⟩ := moves_of_lexUnit h
  have part := run_leaveOpen moves done
  obtain ⟨indent, run⟩ := run_append moves done cut second.toList
  have awaits := Lexer.awaits_start o.leaveOpen unit first told
  have drained := (Lexer.askAll_next awaits).2
  rw [part] at drained
  refine ⟨_, _, drained, ?_, rfl, done, indent, ?_⟩
  · rw [lexUnit_eq, part]
  · -- Resumed, the lexer awaits the run that the whole text's run goes on with.
    have resumed : ((Lexer.closed o.leaveOpen told
        ⟨Layout.start.tokens o (unitPieces o unit first), .finished, stop⟩).resume o
          second).Awaits o told ((stop.before second.toList).run o) := by
      refine ⟨rfl, ?_, rfl, by simp [Lexer.resume]⟩
      have same : (⟨some 0, stop.layout.depth, stop.layout.afterNewline⟩ : Layout) = stop.layout := by
        rw [← indent]
      simp only [Lexer.coming, Lexer.resume, Lexer.closed, Lexer.depth, Lexer.position, same]
      rfl
    rw [(Lexer.askAll_next resumed).2, lexUnit_eq, String.toList_append, run]
    cases ended : ((stop.before second.toList).run o).ending with
    | finished => simp [ended, Ending.error?, Lexer.closed, Ending.tell]
    | failed e => simp [ended, Ending.error?, Lexer.closed, Ending.tell]

/-- A first part with an open block and a linemarker at its end, which names the second part's place. -/
theorem lexUnit_append_of_marked_text :
    ∃ tokens,
      (lexUnit .standard "a.dm" "a\n\tb\n# 7 \x22b.dm\x22\n" .empty).1 = .ok tokens ∧
      ∃ before stopped,
        (Lexer.start Options.standard.leaveOpen "a.dm" "a\n\tb\n# 7 \x22b.dm\x22\n" .empty).drain =
          (before, none, stopped) ∧
        lexUnit Options.standard.leaveOpen "a.dm" "a\n\tb\n# 7 \x22b.dm\x22\n" .empty =
          (.ok before, .empty) ∧
        stopped.queue = [] ∧ stopped.scanner.cursor.rest = [] ∧
        stopped.scanner.layout.indent = some 0 ∧
        lexUnit .standard "a.dm" ("a\n\tb\n# 7 \x22b.dm\x22\n" ++ "\tc /* d") .empty =
          match (stopped.resume .standard "\tc /* d").drain with
          | (behind, none, after) => (.ok (before ++ behind), after.told)
          | (_, some e, after) => (.error e, after.told) := by
  have lexed : (lexUnit .standard "a.dm" "a\n\tb\n# 7 \x22b.dm\x22\n" .empty).1 =
      .ok [⟨.ident, some "a", some ⟨⟨"a.dm", 1, 1⟩, ⟨"a.dm", 1, 2⟩⟩⟩, .newline, .indentBegin,
        ⟨.ident, some "b", some ⟨⟨"a.dm", 2, 9⟩, ⟨"a.dm", 2, 10⟩⟩⟩, .newline, .indentEnd] := by
    decide +kernel
  exact ⟨_, lexed, lexUnit_append (.inr (by decide)) lexed "\tc /* d"⟩

end DreamLexer
