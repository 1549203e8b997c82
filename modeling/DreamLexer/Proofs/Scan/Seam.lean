import DreamLexer.Proofs.Scan.Course

/-!
# Seams of a text

What a scan passes depends on the text behind it through the first character only, and not even on
that if there is none or if a line ends in front of it. `Spelled.of_next` says so of a lexeme,
`Move.before` of a piece and `Moves.before` of a list of pieces.
-/

namespace DreamLexer

theorem Lexeme.NextIs.of_next {q : Char → Prop} {rest other : List Char} (h : NextIs q rest)
    (next : NextIs (fun c => rest.head? = some c) other) : NextIs q other :=
  fun c head => h c (next c head)

theorem Lexeme.head?_append_of_next {raw rest other : List Char} {c : Char}
    (next : NextIs (fun d => rest.head? = some d) other) (head : (raw ++ other).head? = some c) :
    (raw ++ rest).head? = some c := by
  cases raw with
  | nil => exact next c head
  | cons d raw => exact head

/-- A lexeme is spelled as well before a text that starts alike, and before no text at all. -/
theorem Lexeme.Spelled.of_next {lexeme : Lexeme} {raw rest other : List Char}
    (h : lexeme.Spelled raw rest) (next : NextIs (fun c => rest.head? = some c) other) :
    lexeme.Spelled raw other := by
  cases lexeme with
  | lineBreak => exact h
  | separator => exact h
  | comment text =>
    rcases h with ⟨same, inside, newline⟩ | block
    · exact .inl ⟨same, inside, newline.of_next next⟩
    · exact .inr block
  | word text =>
    obtain ⟨same, filled, inside, stops⟩ := h
    exact ⟨same, filled, inside, stops.of_next next⟩
  | literal quote text => exact h
  | punctuation kind =>
    obtain ⟨newline, member, -, slash⟩ := h
    refine ⟨newline, member, ?_, fun same => (slash same).of_next next⟩
    intro spelling kind' member' starts
    have unique := punctuation_unique member member' (List.prefix_append _ _) starts
    exact Nat.le_of_eq (congrArg (fun entry => entry.1.length) unique).symm

/-- A line feed is spelled before any text. -/
theorem Lexeme.Spelled.of_newline {lexeme : Lexeme} {raw rest : List Char} (other : List Char)
    (h : lexeme.Spelled raw rest) (newline : raw.getLast? = some '\n') :
    lexeme = .lineBreak ∧ lexeme.Spelled raw other := by
  obtain ⟨c, last, breaks, -⟩ := h.getLast?
  obtain rfl : c = '\n' := Option.some.inj (last.symm.trans newline)
  obtain rfl := breaks rfl
  exact ⟨rfl, h⟩

namespace Cursor

variable {c : Cursor}

theorem newline_not_mem_line (c : Cursor) : '\n' ∉ c.line := by
  intro member
  simpa using List.all_eq_true.1 List.all_takeWhile _ member

/-- The line ends with a line feed or with the text. -/
theorem wholeLine_cases (c : Cursor) :
    c.wholeLine = c.line ++ ['\n'] ∨ c.wholeLine = c.line ∧ c.linesBehind = [] := by
  have stops := Lexeme.nextIs_dropWhile (· != '\n') c.rest
  rw [wholeLine, linesBehind]
  cases left : c.rest.dropWhile (· != '\n') with
  | nil => exact .inr ⟨List.append_nil _, rfl⟩
  | cons d others =>
    rw [left, Lexeme.nextIs_cons] at stops
    obtain rfl : d = '\n' := by simpa using stops
    exact .inl rfl

/-- A line reaches up to the first line feed. -/
theorem line_of_nextIs {line behind : List Char} (point : Position) (inside : '\n' ∉ line)
    (next : Lexeme.NextIs (· = '\n') behind) :
    Cursor.line ⟨line ++ behind, point⟩ = line ∧
      wholeLine ⟨line ++ behind, point⟩ = line ++ behind.take 1 ∧
        linesBehind ⟨line ++ behind, point⟩ = behind.tail := by
  have before : ∀ d ∈ line, (d != '\n') = true := by
    intro d member
    rw [bne_iff_ne]
    intro same
    subst same
    exact inside member
  have stops : Lexeme.NextIs (fun d => ¬ (d != '\n') = true) behind := by
    simpa [Lexeme.NextIs] using next
  have line_eq := Lexeme.takeWhile_of_nextIs before stops
  have behind_eq := Lexeme.dropWhile_of_nextIs before stops
  refine ⟨line_eq, ?_, ?_⟩
  · rw [wholeLine, Cursor.line, line_eq, behind_eq]
  · rw [linesBehind, behind_eq]

end Cursor

variable {o : Options} {s t : Scanner} {p : Piece} {pieces : List Piece} {other : List Char}

/-- The scanner with other text left to read. -/
def Scanner.before (s : Scanner) (text : List Char) : Scanner :=
  { s with cursor := { s.cursor with rest := text } }

/-- Passing a linemarker leaves what is behind its line alone, which is nothing if the text ends
with it. -/
theorem Move.before_marker {c : Cursor} {l : Layout} {m : Linemarker} (stands : c.atDirective)
    (parsed : Linemarker.parse? c.line = some m)
    (next : other = [] ∨ c.wholeLine.getLast? = some '\n') :
    Move o ⟨⟨c.wholeLine ++ other, c.point⟩, l⟩ (.marker c.wholeLine m)
      ⟨⟨other, ⟨m.unit, m.line, 1⟩⟩, l⟩ := by
  have stands' : Cursor.atDirective ⟨c.wholeLine ++ other, c.point⟩ := by
    obtain ⟨line, sign⟩ := Cursor.wholeLine_of_atDirective stands
    exact Cursor.atDirective_iff.2 ⟨(Cursor.atDirective_iff.1 stands).1, line ++ other, by simp [sign]⟩
  obtain ⟨ending, whole, stop, taken, left⟩ : ∃ ending : List Char,
      c.wholeLine = c.line ++ ending ∧ Lexeme.NextIs (· = '\n') (ending ++ other) ∧
        (ending ++ other).take 1 = ending ∧ (ending ++ other).tail = other := by
    rcases c.wholeLine_cases with newline | ⟨last, -⟩
    · exact ⟨['\n'], newline, Lexeme.nextIs_cons.2 rfl, rfl, rfl⟩
    · obtain rfl : other = [] := by
        refine next.resolve_right ?_
        rw [last]
        exact fun newline => c.newline_not_mem_line (List.mem_of_getLast? newline)
      exact ⟨[], by simpa using last, Lexeme.nextIs_nil, rfl, rfl⟩
  obtain ⟨line_eq, whole_eq, behind_eq⟩ :=
    Cursor.line_of_nextIs c.point c.newline_not_mem_line stop
  rw [← List.append_assoc, ← whole] at line_eq whole_eq behind_eq
  have move := Move.marker (o := o) (l := l) stands' (line_eq.symm ▸ parsed)
  rwa [whole_eq, behind_eq, taken, left, ← whole] at move

/-- Blanks are passed up to what is no blank. -/
theorem Move.before_blanks (clear : s.cursor.atDirective = false)
    (next : Lexeme.NextIs (fun c => (s.passBlanks o).cursor.rest.head? = some c) other) :
    Move o (s.before (s.cursor.rest.takeWhile (Scanner.isPassed s.layout.inIndentation) ++ other))
      (.blanks (s.cursor.rest.takeWhile (Scanner.isPassed s.layout.inIndentation)))
      ((s.passBlanks o).before other) := by
  obtain ⟨⟨text, point⟩, l⟩ := s
  have solid : Lexeme.NextIs (fun c => ¬ Scanner.isPassed l.inIndentation c) other :=
    (Lexeme.nextIs_dropWhile (Scanner.isPassed l.inIndentation) text).of_next next
  have blank : ∀ c ∈ text.takeWhile (Scanner.isPassed l.inIndentation),
      Scanner.isPassed l.inIndentation c :=
    fun c member => List.all_eq_true.1 List.all_takeWhile c member
  have passed := Lexeme.takeWhile_of_nextIs blank solid
  have left := Lexeme.dropWhile_of_nextIs blank solid
  have clear' : Cursor.atDirective
      ⟨text.takeWhile (Scanner.isPassed l.inIndentation) ++ other, point⟩ = false := by
    rw [← Bool.not_eq_true] at clear ⊢
    intro stands
    apply clear
    simp only [Cursor.atDirective, Bool.and_eq_true, beq_iff_eq] at stands ⊢
    have head : (text.takeWhile (Scanner.isPassed l.inIndentation) ++
        text.dropWhile (Scanner.isPassed l.inIndentation)).head? = some '#' :=
      Lexeme.head?_append_of_next next stands.2
    rw [List.takeWhile_append_dropWhile] at head
    exact ⟨stands.1, head⟩
  have move := Move.blanks (o := o) (s := ⟨⟨_, point⟩, l⟩) clear'
  simp only [Scanner.passBlanks, passed, left] at move
  exact move

/-- A piece is passed as well before a text that starts alike, before no text at all and, if a line
ends with the piece, before any text. -/
theorem Move.before (move : Move o s p t)
    (next : p.raw.getLast? = some '\n' ∨ Lexeme.NextIs (fun c => t.cursor.rest.head? = some c) other) :
    Move o (s.before (p.raw ++ other)) p (t.before other) := by
  cases move with
  | @marker c l m stands parsed =>
    refine Move.before_marker stands parsed ?_
    rcases next with newline | next
    · exact .inr newline
    · rcases c.wholeLine_cases with newline | ⟨-, behind⟩
      · exact .inr (by simp [newline])
      · cases other with
        | nil => exact .inl rfl
        | cons d others =>
          have head := Lexeme.nextIs_cons.1 next
          simp [behind] at head
  | blanks clear =>
    refine Move.before_blanks clear (next.resolve_left ?_)
    intro newline
    have passed := List.all_eq_true.1 List.all_takeWhile _ (List.mem_of_getLast? newline)
    exact (not_isWordPart_of_isPassed passed).1 rfl
  | @lexeme rest raw point l lexeme span spelled covers =>
    refine .lexeme ?_ covers
    rcases next with newline | next
    · exact (spelled.of_newline other newline).2
    · exact spelled.of_next next

/-- A piece without text changes nothing. -/
theorem Move.of_raw_nil (move : Move o s p t) (nothing : p.raw = []) :
    t = s ∧ s.layout.read o p = ([], s.layout) := by
  cases move with
  | marker stands parsed =>
    obtain ⟨line, sign⟩ := Cursor.wholeLine_of_atDirective stands
    simp [Piece.raw, sign] at nothing
  | blanks clear =>
    rw [Piece.raw] at nothing
    refine ⟨Scanner.passBlanks_of_takeWhile_eq_nil nothing, ?_⟩
    rw [Layout.read, nothing, List.count_nil]
    simp [Layout.passTabs]
  | lexeme spelled covers => exact absurd nothing spelled.ne_nil

/-- Pieces are passed as well before a text that starts alike, before no text at all and, if a line
ends with the last of them, before any text. Those without text are left out. -/
theorem Moves.before (moves : Moves o s pieces t)
    (next : Piece.text pieces = [] ∨ (Piece.text pieces).getLast? = some '\n' ∨
      Lexeme.NextIs (fun c => t.cursor.rest.head? = some c) other) :
    ∃ filled, Moves o (s.before (Piece.text pieces ++ other)) filled (t.before other) ∧
      Piece.text filled = Piece.text pieces ∧ (∀ p ∈ filled, p.raw ≠ []) ∧
      s.layout.tokens o filled = s.layout.tokens o pieces := by
  induction moves with
  | refl s => exact ⟨[], .refl _, rfl, by simp, rfl⟩
  | @head s t u p pieces move others ih =>
    rw [Piece.text_cons] at next ⊢
    by_cases nothing : p.raw = []
    · obtain ⟨rfl, quiet⟩ := move.of_raw_nil nothing
      rw [nothing, List.nil_append] at next ⊢
      rw [Layout.tokens_cons, quiet]
      exact ih next
    · have next := next.resolve_left (by simp [nothing])
      have rest_eq := others.rest_eq
      -- The piece sees the next one that has text, and the end only if there is none.
      have first : Move o (s.before (p.raw ++ (Piece.text pieces ++ other))) p
          (t.before (Piece.text pieces ++ other)) := by
        apply move.before
        cases text : Piece.text pieces with
        | nil => simpa [text, rest_eq] using next
        | cons c more =>
          rw [rest_eq, text]
          exact .inr (Lexeme.nextIs_cons.2 rfl)
      have behind : Piece.text pieces = [] ∨ (Piece.text pieces).getLast? = some '\n' ∨
          Lexeme.NextIs (fun c => u.cursor.rest.head? = some c) other := by
        cases text : Piece.text pieces with
        | nil => exact .inl rfl
        | cons c more => exact .inr (by simpa [text, List.getLast?_append] using next)
      obtain ⟨filled, moves, same, full, tokens⟩ := ih behind
      refine ⟨p :: filled, ?_, by rw [Piece.text_cons, same], ?_, ?_⟩
      · rw [List.append_assoc]
        exact .head first moves
      · exact List.forall_mem_cons.2 ⟨nothing, full⟩
      · rw [Layout.tokens_cons, Layout.tokens_cons, ← move.layout_eq]
        exact congrArg _ tokens

/-- A line starts here, and nothing of it is read. -/
structure Scanner.AtLineStart (s : Scanner) : Prop where
  first : s.cursor.point.isLineStart
  unindented : s.layout.indent = some 0

/-- Behind a line feed that ends a piece a line starts. -/
theorem Move.atLineStart {before : List Char} (move : Move o s p t) (steady : s.InStep before)
    (newline : p.raw.getLast? = some '\n') : t.AtLineStart := by
  cases move with
  | marker stands parsed =>
    exact ⟨rfl, steady.unindented (Cursor.atDirective_iff.1 stands).1⟩
  | blanks clear =>
    have passed := List.all_eq_true.1 List.all_takeWhile _ (List.mem_of_getLast? newline)
    exact absurd rfl (not_isWordPart_of_isPassed passed).1
  | @lexeme rest raw point l lexeme span spelled covers =>
    subst covers
    obtain ⟨rfl, -⟩ := spelled.of_newline rest newline
    refine ⟨?_, (Layout.newline_spec o { l with indent := some 0 }).2.1⟩
    exact (Position.isLineStart_advanceOver o.effectiveTabWidth_pos steady.counted newline).2 rfl

/-- Behind a line feed that ends the last of some pieces a line starts. -/
theorem Moves.atLineStart_of_newline {before : List Char} (moves : Moves o s pieces t)
    (filled : ∀ p ∈ pieces, p.raw ≠ []) (steady : s.InStep before)
    (newline : (Piece.text pieces).getLast? = some '\n') : t.AtLineStart := by
  induction moves generalizing before with
  | refl => simp at newline
  | @head s t u p pieces move others ih =>
    obtain ⟨-, full⟩ := List.forall_mem_cons.1 filled
    cases pieces with
    | nil =>
      cases others
      exact move.atLineStart steady (by simpa using newline)
    | cons q more =>
      obtain ⟨d, tail, here⟩ := List.exists_cons_of_ne_nil (full q (by simp))
      refine ih full (move.inStep steady) ?_
      simpa [here, List.getLast?_append] using newline

/-- Behind text that ends with a line feed a line starts, and so it does behind no text. -/
theorem Moves.atLineStart {before : List Char} (moves : Moves o s pieces t)
    (steady : s.InStep before) (starts : s.AtLineStart)
    (cut : Piece.text pieces = [] ∨ (Piece.text pieces).getLast? = some '\n') :
    t.AtLineStart := by
  -- Pieces without text are left out first: the line feed need not stand in the last piece.
  obtain ⟨filled, moves', text, full, -⟩ := moves.before (.inr (.inr fun _ head => head))
  have same : s.before (Piece.text pieces ++ t.cursor.rest) = s := by
    rw [← moves.rest_eq]
    rfl
  rw [same] at moves'
  cases cut with
  | inl nothing =>
    cases filled with
    | nil =>
      cases moves'
      exact starts
    | cons p filled => simp [nothing, full p (by simp)] at text
  | inr newline =>
    exact Moves.atLineStart_of_newline moves' full steady (text.symm ▸ newline)

end DreamLexer
