import DreamLexer.Proofs.Lexeme.Unread
import DreamLexer.Proofs.Scan.Place
import DreamLexer.Proofs.Scan.Simulation

/-!
# Where directives are recognised

Whether a directive may stand somewhere is asked of the column, and linemarkers, tabs and long lines
all move that. It is asked of the text all the same: `Moves.isLineStart_iff` says that the first
column is where a line of the text starts, or the end behind the last linemarker. `directive_law`
says so of all scanners between two steps, and that the sign of a directive is one just if it starts
a line that does not start inside a literal or a block comment.
-/

namespace DreamLexer

variable {o : Options} {s t u : Scanner} {p : Piece} {read others : List Piece}

/-- The scanners at which a scan starts a step. -/
inductive Scanner.Reached (o : Options) (s : Scanner) : Scanner → Prop where
  | start : Reached o s s
  | step {t next : Scanner} {tokens : List Token} (before : Reached o s t)
      (placed : t.step o = .placed tokens next) : Reached o s next

/-- The scanners at which a scan starts a step, or has come to the end of the text. -/
inductive Scanner.Rests (o : Options) (s : Scanner) : Scanner → Prop where
  | between {t : Scanner} (reached : Reached o s t) : Rests o s t
  | atEnd {t last : Scanner} {tokens : List Token} (reached : Reached o s t)
      (ended : t.step o = .ended tokens .finished last) : Rests o s last

/-- The literals and block comments, which may reach over the end of a line. -/
def Piece.spansLines : Piece → Prop
  | .lexeme raw (.comment _) _ => ['/', '*'] <+: raw
  | .lexeme _ (.literal _ _) _ => True
  | _ => False

/-- The offset lies inside a literal or block comment that the scan of a unit passes. -/
def InsideLexeme (o : Options) (unit text : String) (offset : Nat) : Prop :=
  ∃ read p others, unitPieces o unit text = read ++ p :: others ∧ p.spansLines ∧
    (Piece.text read).length < offset ∧ offset < (Piece.text read ++ p.raw).length

/-- What stands at the offset is treated as a directive: it is passed as a linemarker, or the scan
fails there because it is none. -/
inductive TreatedAsDirective (o : Options) (unit text : String) (offset : Nat) : Prop where
  | passed {read : List Piece} {raw : List Char} {m : Linemarker} {others : List Piece}
      (pieces : unitPieces o unit text = read ++ .marker raw m :: others)
      (here : (Piece.text read).length = offset)
  | failed {told : Diagnostics} {e : LexError} (error : (lexUnit o unit text told).1 = .error e)
      (kind : e.kind = .malformedDirective)
      (here : (Piece.text (unitPieces o unit text)).length = offset)

namespace Moves

/-- Pieces without text change nothing. -/
theorem of_text_nil (moves : Moves o s read t) (nothing : Piece.text read = []) : t = s := by
  induction moves with
  | refl => rfl
  | head move _ ih =>
    rw [Piece.text_cons, List.append_eq_nil_iff] at nothing
    rw [ih nothing.2, (move.of_raw_nil nothing.1).1]

/-- Behind a linemarker whose line ends where the scan stands, it stands at the marker's place. -/
theorem isLineStart_of_mark (moves : Moves o s read t) {m : Mark} (passed : m ∈ Piece.marks 0 read)
    (here : m.stop = (Piece.text read).length) : t.cursor.point.isLineStart := by
  obtain ⟨before, raw, behind, rfl, stop⟩ := Piece.mem_marks passed
  have nothing : Piece.text behind = [] := by
    rw [Piece.text_append, Piece.text_cons] at here
    simp only [Piece.raw, List.length_append] at here
    apply List.length_eq_zero_iff.1
    omega
  obtain ⟨u, -, later⟩ := moves.split
  cases later with
  | head move rest =>
    rw [rest.of_text_nil nothing]
    cases move
    rfl

/-- The first column is where a line of the text starts, or behind the last linemarker. -/
theorem isLineStart_iff {unit : String} {text : List Char} (moves : Moves o (.start unit text) read t) :
    t.cursor.point.isLineStart ↔
      Piece.text read = [] ∨ (Piece.text read).getLast? = some '\n' ∨
        ∃ m ∈ Piece.marks 0 read, m.stop = (Piece.text read).length := by
  have steady := Scanner.inStep_start unit text
  constructor
  · intro first
    -- The place is reckoned from the last linemarker, or from the start: what was passed since then
    -- leads to the first column only if it is nothing or ends with a line feed.
    have ends {origin : Position} {since : List Char} (counted : origin.Counted)
        (since_first : (origin.advanceOver o.effectiveTabWidth since).isLineStart) :
        since = [] ∨ since.getLast? = some '\n' := by
      cases last : since.getLast? with
      | none => exact .inl (List.getLast?_eq_none_iff.1 last)
      | some c =>
        rw [Position.isLineStart_advanceOver o.effectiveTabWidth_pos counted last] at since_first
        exact .inr (congrArg some since_first)
    rw [moves.point_of_marks, placeAt_length fun m => Piece.stop_le_of_mem_marks] at first
    cases found : (Piece.marks 0 read).getLast? with
    | none =>
      rw [found] at first
      exact (ends steady.counted first).imp_right .inl
    | some m =>
      rw [found] at first
      have passed := List.mem_of_getLast? found
      rcases ends (show m.place.Counted from Nat.le_refl 1) first with nothing | newline
      · have bound := Piece.stop_le_of_mem_marks passed
        rw [List.drop_eq_nil_iff] at nothing
        exact .inr (.inr ⟨m, passed, Nat.le_antisymm bound nothing⟩)
      · rw [List.getLast?_drop] at newline
        split at newline
        · simp at newline
        · exact .inr (.inl newline)
  · rintro (nothing | newline | ⟨m, passed, here⟩)
    · exact (moves.atLineStart steady ⟨rfl, rfl⟩ (.inl nothing)).first
    · exact (moves.atLineStart steady ⟨rfl, rfl⟩ (.inr newline)).first
    · exact moves.isLineStart_of_mark passed here

end Moves

/-- The end of the text changes the depth alone. -/
theorem Layout.indent_finish (o : Options) (l : Layout) : (l.finish o).2.indent = l.indent := by
  unfold finish
  split <;> rfl

namespace Scanner

/-- Where a scan starts a step, it has passed the first pieces of its run. -/
theorem Reached.moves (reached : Reached o s t) :
    ∃ read, Moves o s read t ∧ s.pieces o = read ++ t.pieces o := by
  induction reached with
  | start => exact ⟨[], .refl s, rfl⟩
  | @step t next tokens _ placed ih =>
    obtain ⟨read, moves, pieces⟩ := ih
    have spec := step_spec o t
    rw [placed] at spec
    cases spec with
    | placed step =>
      refine ⟨read ++ t.stepPieces o, moves.append step, ?_⟩
      rw [pieces, pieces_of_placed placed, List.append_assoc]

/-- Where a scan rests, it stands behind the first pieces of its run, with the indentation that they
leave. -/
theorem Rests.moves (rests : Rests o s t) :
    ∃ read others stop, s.pieces o = read ++ others ∧ Moves o s read stop ∧
      t.cursor = stop.cursor ∧ t.layout.indent = stop.layout.indent := by
  cases rests with
  | between reached =>
    obtain ⟨read, moves, pieces⟩ := reached.moves
    exact ⟨read, _, t, pieces, moves, rfl, rfl⟩
  | @atEnd v last tokens reached ended =>
    obtain ⟨read, moves, pieces⟩ := reached.moves
    have spec := step_spec o v
    rw [ended] at spec
    cases spec with
    | @ended stop last tokens ending step silent ends =>
      obtain ⟨-, -, rfl⟩ := ends.finished_inv
      rw [pieces_of_ended ended] at pieces
      refine ⟨read ++ v.stepPieces o, [], stop, by simpa using pieces, moves.append step, rfl, ?_⟩
      exact Layout.indent_finish o stop.layout

end Scanner

namespace Piece

/-- A text that is cut where pieces are passed is cut between two of them, or inside one. -/
theorem boundary_or_inside {pieces : List Piece} {before behind rest : List Char}
    (whole : text pieces ++ rest = before ++ behind) (bound : before.length ≤ (text pieces).length) :
    (∃ read others, pieces = read ++ others ∧ text read = before) ∨
      ∃ read p others first second, pieces = read ++ p :: others ∧ p.raw = first ++ second ∧
        first ≠ [] ∧ second ≠ [] ∧ before = text read ++ first := by
  induction pieces generalizing before with
  | nil =>
    left
    refine ⟨[], [], rfl, ?_⟩
    exact (List.length_eq_zero_iff.1 (Nat.le_zero.1 bound)).symm
  | cons p pieces ih =>
    rw [text_cons, List.append_assoc] at whole
    rcases List.append_eq_append_iff.1 whole with ⟨first, rfl, tail⟩ | ⟨second, cut, tail⟩
    · -- The cut is behind the first piece.
      rw [text_cons, List.length_append, List.length_append] at bound
      rcases ih tail (by omega) with ⟨read, others, rfl, same⟩ | inside
      · left
        exact ⟨p :: read, others, rfl, by rw [text_cons, same]⟩
      · right
        obtain ⟨read, q, others, before, behind, rfl, split, some_before, some_behind, same⟩ := inside
        refine ⟨p :: read, q, others, before, behind, rfl, split, some_before, some_behind, ?_⟩
        rw [same, text_cons, List.append_assoc]
    · by_cases nothing : before = []
      · left
        exact ⟨[], p :: pieces, rfl, nothing.symm⟩
      by_cases all : second = []
      · left
        refine ⟨[p], pieces, rfl, ?_⟩
        rw [text_cons, text_nil, List.append_nil, cut, all, List.append_nil]
      · right
        exact ⟨[], p, pieces, before, second, rfl, cut, nothing, all, rfl⟩

/-- Between two pieces is not inside a piece. -/
theorem not_inside {read others read' others' : List Piece} {p : Piece}
    (same : read ++ others = read' ++ p :: others') :
    ¬ ((text read').length < (text read).length ∧
      (text read).length < (text read' ++ p.raw).length) := by
  rintro ⟨start, stop⟩
  rw [List.length_append] at stop
  rcases List.append_eq_append_iff.1 same with ⟨more, rfl, -⟩ | ⟨more, rfl, tail⟩
  · rw [text_append, List.length_append] at start
    omega
  · cases more with
    | nil => simp at start
    | cons q more =>
      obtain ⟨rfl, -⟩ := List.cons.inj tail
      rw [text_append, text_cons, List.length_append, List.length_append] at stop
      omega

end Piece

/-- A lexeme in which a line starts is a literal or a block comment. -/
theorem Lexeme.Spelled.spansLines {lexeme : Lexeme} {raw rest first second : List Char} (span : Span)
    (h : lexeme.Spelled raw rest) (split : raw = first ++ second) (filled : second ≠ [])
    (newline : first.getLast? = some '\n') : (Piece.lexeme raw lexeme span).spansLines := by
  have inside : '\n' ∈ raw := by
    rw [split]
    exact List.mem_append_left _ (List.mem_of_getLast? newline)
  cases lexeme with
  | lineBreak =>
    obtain rfl : raw = ['\n'] := h
    have lengths := congrArg List.length split
    have := List.length_pos_iff.2 filled
    have := List.length_pos_of_mem (List.mem_of_getLast? newline)
    simp only [List.length_append, List.length_singleton] at lengths
    omega
  | separator =>
    obtain rfl : raw = [';'] := h
    simp at inside
  | comment text =>
    rcases h with ⟨rfl, clean, -⟩ | ⟨rfl, -⟩
    · simp [clean] at inside
    · exact ⟨text ++ ['*', '/'], rfl⟩
  | word text =>
    obtain ⟨rfl, -, parts, -⟩ := h
    exact absurd (parts _ inside) (by decide)
  | literal quote text => trivial
  | punctuation kind => exact absurd inside (punctuation_line _ h.2.1).1

/-- A piece in which a line starts is a literal or a block comment. -/
theorem Move.spansLines {first second : List Char} (move : Move o s p t)
    (split : p.raw = first ++ second) (filled : second ≠ [])
    (newline : first.getLast? = some '\n') : p.spansLines := by
  have inside : '\n' ∈ first := List.mem_of_getLast? newline
  cases move with
  | @marker c l m stands parsed =>
    exfalso
    apply c.newline_not_mem_line
    rcases c.wholeLine_cases with ends | ⟨last, -⟩
    · obtain ⟨init, d, rfl⟩ := List.eq_nil_or_concat second |>.resolve_left filled
      rw [Piece.raw, ends, List.concat_eq_append, ← List.append_assoc] at split
      rw [(List.append_inj' split rfl).1]
      exact List.mem_append_left _ inside
    · rw [Piece.raw, last] at split
      rw [split]
      exact List.mem_append_left _ inside
  | blanks clear =>
    rw [Piece.raw] at split
    have member : '\n' ∈ s.cursor.rest.takeWhile (Scanner.isPassed s.layout.inIndentation) := by
      rw [split]
      exact List.mem_append_left _ inside
    have passed := List.all_eq_true.1 List.all_takeWhile _ member
    exact absurd rfl (not_isWordPart_of_isPassed passed).1
  | lexeme spelled covers => exact spelled.spansLines _ split filled newline

section

variable {unit text : String}

/-- A linemarker that the scan has passed ends with a line feed or with the text. -/
theorem newline_of_mem_unitMarks {before rest : List Char} {m : Mark}
    (passed : m ∈ unitMarks o unit text) (whole : text.toList = before ++ rest)
    (here : m.stop = before.length) : before.getLast? = some '\n' ∨ rest = [] := by
  obtain ⟨first, line, ending, behind, same, stop, -, -, ends, -⟩ :=
    (inText_of_mem_unitMarks passed).line
  rw [whole] at same
  obtain ⟨rfl, rfl⟩ := List.append_inj same (here.symm.trans stop.symm)
  rcases ends with rfl | ⟨-, rfl⟩
  · left
    simp
  · right
    rfl

/-- Between its pieces the scan of a unit stands in the first column just where a line of the text
starts, or at the end of the text behind a linemarker. -/
theorem isLineStart_iff_of_unitPieces (pieces : unitPieces o unit text = read ++ others)
    (moves : Moves o (.start unit text.toList) read t) :
    t.cursor.point.isLineStart ↔
      Piece.text read = [] ∨ (Piece.text read).getLast? = some '\n' ∨
        t.cursor.rest = [] ∧ ∃ m ∈ unitMarks o unit text, m.stop = text.toList.length := by
  have whole : text.toList = Piece.text read ++ t.cursor.rest := moves.rest_eq
  obtain ⟨last, all⟩ := moves_unitPieces o unit text
  rw [pieces] at all
  obtain ⟨v, -, behind⟩ := all.split
  have marks : (unitMarks o unit text).filter (·.stop ≤ (Piece.text read).length) =
      Piece.marks 0 read := by
    rw [unitMarks, pieces]
    exact behind.filter_marks
  rw [moves.isLineStart_iff, ← marks]
  constructor
  · rintro (nothing | newline | ⟨m, passed, here⟩)
    · exact .inl nothing
    · exact .inr (.inl newline)
    · have passed := (List.mem_filter.1 passed).1
      rcases newline_of_mem_unitMarks passed whole here with newline | done
      · exact .inr (.inl newline)
      · refine .inr (.inr ⟨done, m, passed, ?_⟩)
        rw [here, whole, done, List.append_nil]
  · rintro (nothing | newline | ⟨done, m, passed, here⟩)
    · exact .inl nothing
    · exact .inr (.inl newline)
    · rw [whole, done, List.append_nil] at here
      refine .inr (.inr ⟨m, List.mem_filter.2 ⟨passed, ?_⟩, here⟩)
      simp [here]

/-- What is treated as a directive stands between two pieces, and a line starts there. -/
theorem TreatedAsDirective.starts {offset : Nat} (treated : TreatedAsDirective o unit text offset) :
    ∃ read others, unitPieces o unit text = read ++ others ∧ (Piece.text read).length = offset ∧
      (Piece.text read = [] ∨ (Piece.text read).getLast? = some '\n') := by
  -- In both cases the scan stands in front of a directive.
  have line_starts {read : List Piece} {t : Scanner}
      (moves : Moves o (.start unit text.toList) read t) (stands : t.cursor.atDirective) :
      Piece.text read = [] ∨ (Piece.text read).getLast? = some '\n' := by
    obtain ⟨first, rest, here⟩ := Cursor.atDirective_iff.1 stands
    have steady := moves.inStep (Scanner.inStep_start unit text.toList)
    exact (steady.line_start first).resolve_left (by simp [here])
  cases treated with
  | @passed read raw m others pieces here =>
    obtain ⟨last, all⟩ := moves_unitPieces o unit text
    rw [pieces] at all
    obtain ⟨t, before, behind⟩ := all.split
    refine ⟨read, _, pieces, here, ?_⟩
    cases behind with
    | head move _ =>
      cases move with
      | marker stands parsed => exact line_starts before stands
  | @failed told e error kind here =>
    have counted : (Scanner.start unit text.toList).cursor.point.Counted := Nat.le_refl 1
    obtain ⟨stop, fault, moves, stuck, rfl⟩ :=
      Scanner.run_failed counted (ending_of_lexUnit error)
    refine ⟨unitPieces o unit text, [], (List.append_nil _).symm, here, ?_⟩
    cases stuck with
    | directive stands unparsed => exact line_starts moves stands
    | lexeme ready there unread => cases Lexeme.unread_of_read unread <;> nomatch kind

/-- The sign of a directive at the start of a line, between two pieces, is treated as one. -/
theorem treatedAsDirective_of_starts {rest : List Char}
    (pieces : unitPieces o unit text = read ++ others)
    (here : text.toList = Piece.text read ++ '#' :: rest)
    (starts : Piece.text read = [] ∨ (Piece.text read).getLast? = some '\n') :
    TreatedAsDirective o unit text (Piece.text read).length := by
  have counted : (Scanner.start unit text.toList).cursor.point.Counted := Nat.le_refl 1
  obtain ⟨stop, all, ends⟩ : ∃ stop, Moves o (.start unit text.toList) (unitPieces o unit text) stop ∧
      (stop.cursor.rest = [] ∨ ∃ fault, stop.Stuck fault) := Scanner.run_course o counted
  have whole := all
  rw [pieces] at all
  obtain ⟨t, before, behind⟩ := all.split
  have sign : t.cursor.rest = '#' :: rest := by
    have text_eq : text.toList = Piece.text read ++ t.cursor.rest := before.rest_eq
    exact List.append_cancel_left (text_eq.symm.trans here)
  have first : t.cursor.point.isLineStart :=
    (before.atLineStart (Scanner.inStep_start unit text.toList) ⟨rfl, rfl⟩ starts).first
  have stands : t.cursor.atDirective := Cursor.atDirective_iff.2 ⟨first, rest, sign⟩
  cases behind with
  | refl =>
    rcases ends with done | ⟨fault, stuck⟩
    · simp [done] at sign
    cases stuck with
    | directive stands' unparsed =>
      have fails := (Scanner.run_of_stuck (o := o) (Scanner.Stuck.directive stands' unparsed)).2
      have error : (lexUnit o unit text .empty).1 =
          .error (stop.errorOf o (.directive stop.cursor.line)) := by
        rw [lexUnit_eq, whole.run_eq counted]
        simp only [fails]
      refine .failed error rfl ?_
      rw [pieces, List.append_nil]
    | lexeme ready there unread => simp [ready.clear] at stands
  | head move _ =>
    cases move with
    | marker stands' parsed => exact .passed pieces rfl
    | blanks clear => simp [clear] at stands
    | @lexeme rest raw point l lexeme span spelled covers =>
      have clear : (⟨⟨raw ++ rest, point⟩, l⟩ : Scanner).cursor.atDirective = false :=
        (Scanner.ready_of_spelled spelled).clear
      simp [clear] at stands

/-- Inside a piece a line starts in a literal or a block comment only. -/
theorem insideLexeme_of_split {first second : List Char}
    (pieces : unitPieces o unit text = read ++ p :: others) (split : p.raw = first ++ second)
    (some_before : first ≠ []) (some_behind : second ≠ [])
    (newline : first.getLast? = some '\n') :
    InsideLexeme o unit text (Piece.text read ++ first).length := by
  obtain ⟨last, all⟩ := moves_unitPieces o unit text
  rw [pieces] at all
  obtain ⟨t, -, later⟩ := all.split
  have := List.length_pos_iff.2 some_before
  have := List.length_pos_iff.2 some_behind
  refine ⟨read, p, others, pieces, ?_, ?_, ?_⟩
  · cases later with
    | head move _ => exact move.spansLines split some_behind newline
  · rw [List.length_append]
    omega
  · simp only [split, List.length_append]
    omega

/-- What starts with the sign of a directive is treated as one just if the scan comes there and a
line starts there that does not start inside a literal or block comment. -/
theorem treatedAsDirective_iff {before behind : List Char}
    (here : text.toList = before ++ '#' :: behind) :
    TreatedAsDirective o unit text before.length ↔
      before.length ≤ (Piece.text (unitPieces o unit text)).length ∧
        (before = [] ∨ before.getLast? = some '\n') ∧
          ¬ InsideLexeme o unit text before.length := by
  obtain ⟨last, all⟩ := moves_unitPieces o unit text
  have whole : text.toList = Piece.text (unitPieces o unit text) ++ last.cursor.rest := all.rest_eq
  constructor
  · intro treated
    obtain ⟨read, others, pieces, length, starts⟩ := treated.starts
    have passed : text.toList = Piece.text read ++ (Piece.text others ++ last.cursor.rest) := by
      rw [whole, pieces, Piece.text_append, List.append_assoc]
    obtain ⟨rfl, -⟩ := List.append_inj (passed.symm.trans here) length
    refine ⟨?_, starts, ?_⟩
    · rw [pieces, Piece.text_append, List.length_append]
      exact Nat.le_add_right _ _
    · rintro ⟨read', p, others', pieces', -, start, stop⟩
      exact Piece.not_inside (pieces.symm.trans pieces') ⟨start, stop⟩
  · rintro ⟨bound, starts, outside⟩
    rcases Piece.boundary_or_inside (whole.symm.trans here) bound with
      ⟨read, others, pieces, rfl⟩ | ⟨read, p, others, first, second, pieces, split, some_before,
        some_behind, rfl⟩
    · exact treatedAsDirective_of_starts pieces here starts
    · obtain ⟨c, tail, rfl⟩ := List.exists_cons_of_ne_nil some_before
      have newline : (c :: tail).getLast? = some '\n' := by
        simpa [List.getLast?_append] using starts
      exact absurd (insideLexeme_of_split pieces split some_before some_behind newline) outside

/-- Where the scan of a unit rests, the first column is told by the text before, and no tab was
counted in it. -/
theorem column_of_rests (rests : Scanner.Rests o (.start unit text.toList) t) :
    ∃ before, text.toList = before ++ t.cursor.rest ∧
      (t.cursor.point.column = 1 ↔
        before = [] ∨ before.getLast? = some '\n' ∨
          t.cursor.rest = [] ∧ ∃ m ∈ unitMarks o unit text, m.stop = text.toList.length) ∧
      (t.cursor.point.column = 1 → t.layout.indent = some 0) := by
  obtain ⟨read, others, stop, pieces, moves, cursor, indent⟩ := rests.moves
  have first : t.cursor.point.column = 1 ↔ stop.cursor.point.isLineStart := by
    rw [cursor, Position.isLineStart, beq_iff_eq]
  refine ⟨Piece.text read, cursor ▸ moves.rest_eq, ?_, ?_⟩
  · rw [first, cursor]
    exact isLineStart_iff_of_unitPieces pieces moves
  · rw [first, indent]
    exact (moves.inStep (Scanner.inStep_start unit text.toList)).unindented

/-- Directives are recognised at the start of physical lines. Wherever the scan of a unit starts a
step or has come to the end, the column is the first one just if nothing was passed, or a line feed
last, or all of the text with a linemarker at its end; and then no tab was counted yet. So what
starts with the sign of a directive is treated as one just if the scan comes there and it starts a
line that does not start inside a literal or block comment. -/
theorem directive_law (o : Options) (unit text : String) :
    (∀ t, Scanner.Rests o (.start unit text.toList) t →
      ∃ before, text.toList = before ++ t.cursor.rest ∧
        (t.cursor.point.column = 1 ↔
          before = [] ∨ before.getLast? = some '\n' ∨
            t.cursor.rest = [] ∧ ∃ m ∈ unitMarks o unit text, m.stop = text.toList.length) ∧
        (t.cursor.point.column = 1 → t.layout.indent = some 0)) ∧
    ∀ before behind, text.toList = before ++ '#' :: behind →
      (TreatedAsDirective o unit text before.length ↔
        before.length ≤ (Piece.text (unitPieces o unit text)).length ∧
          (before = [] ∨ before.getLast? = some '\n') ∧
            ¬ InsideLexeme o unit text before.length) := by
  constructor
  · intro t rests
    exact column_of_rests rests
  · intro before behind here
    exact treatedAsDirective_iff here

/-- A unit with the sign of a directive inside a literal, at the start of a line, and with one in the
last line, which has no line feed: the scan ends in the first column. -/
theorem directive_law_of_marker_at_end :
    (∃ t, Scanner.Rests .standard (.start "a.dm" "\x27\n#\x27\n# 7 \x22b.dm\x22".toList) t ∧
      t.cursor.point = ⟨"b.dm", 7, 1⟩ ∧ t.layout.indent = some 0 ∧
      ∃ m ∈ unitMarks .standard "a.dm" "\x27\n#\x27\n# 7 \x22b.dm\x22",
        m.stop = "\x27\n#\x27\n# 7 \x22b.dm\x22".toList.length) ∧
    ¬ TreatedAsDirective .standard "a.dm" "\x27\n#\x27\n# 7 \x22b.dm\x22" 2 ∧
    TreatedAsDirective .standard "a.dm" "\x27\n#\x27\n# 7 \x22b.dm\x22" 5 ∧
    ¬ InsideLexeme .standard "a.dm" "\x27\n#\x27\n# 7 \x22b.dm\x22" 5 := by
  have literal : (Scanner.start "a.dm" "\x27\n#\x27\n# 7 \x22b.dm\x22".toList).step .standard =
      .placed [⟨.singleQuoted, some "\n#", some ⟨⟨"a.dm", 1, 1⟩, ⟨"a.dm", 2, 3⟩⟩⟩]
        ⟨⟨"\n# 7 \x22b.dm\x22".toList, ⟨"a.dm", 2, 3⟩⟩, ⟨none, 0, false⟩⟩ := by decide +kernel
  have newline : (⟨⟨"\n# 7 \x22b.dm\x22".toList, ⟨"a.dm", 2, 3⟩⟩, ⟨none, 0, false⟩⟩ : Scanner).step
      .standard = .placed [.newline]
        ⟨⟨"# 7 \x22b.dm\x22".toList, ⟨"a.dm", 3, 1⟩⟩, ⟨some 0, 0, true⟩⟩ := by decide +kernel
  have marker : (⟨⟨"# 7 \x22b.dm\x22".toList, ⟨"a.dm", 3, 1⟩⟩, ⟨some 0, 0, true⟩⟩ : Scanner).step
      .standard = .ended [] .finished ⟨⟨[], ⟨"b.dm", 7, 1⟩⟩, ⟨some 0, 0, true⟩⟩ := by decide +kernel
  have pieces : unitPieces .standard "a.dm" "\x27\n#\x27\n# 7 \x22b.dm\x22" =
      [.blanks [], .lexeme "\x27\n#\x27".toList (.literal .single "\n#".toList)
          ⟨⟨"a.dm", 1, 1⟩, ⟨"a.dm", 2, 3⟩⟩,
        .blanks [], .lexeme ['\n'] .lineBreak ⟨⟨"a.dm", 2, 3⟩, ⟨"a.dm", 3, 1⟩⟩] ++
      .marker "# 7 \x22b.dm\x22".toList ⟨7, "b.dm", []⟩ :: [.blanks []] := by decide +kernel
  obtain ⟨places, signs⟩ :=
    directive_law .standard "a.dm" "\x27\n#\x27\n# 7 \x22b.dm\x22"
  have rests := Scanner.Rests.atEnd (.step (.step .start literal) newline) marker
  have inside : InsideLexeme .standard "a.dm" "\x27\n#\x27\n# 7 \x22b.dm\x22" 2 :=
    ⟨[.blanks []], _, _, pieces, trivial, by decide, by decide⟩
  have treated : TreatedAsDirective .standard "a.dm" "\x27\n#\x27\n# 7 \x22b.dm\x22" 5 :=
    .passed pieces rfl
  obtain ⟨before, whole, first, unindented⟩ := places _ rests
  rw [List.append_nil] at whole
  refine ⟨⟨_, rests, rfl, unindented rfl, ?_⟩, ?_, treated, ?_⟩
  · rcases first.1 rfl with nothing | newline | ⟨-, mark⟩
    · rw [← whole] at nothing
      exact absurd nothing (by decide)
    · rw [← whole] at newline
      exact absurd newline (by decide)
    · exact mark
  · intro treated'
    exact ((signs ['\x27', '\n'] _ rfl).1 treated').2.2 inside
  · exact ((signs "\x27\n#\x27\n".toList _ rfl).1 treated).2.2

end

end DreamLexer
