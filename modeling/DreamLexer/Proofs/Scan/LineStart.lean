import DreamLexer.Proofs.Source.Counters
import DreamLexer.Proofs.Scan.Piece

/-!
# Where lines start

A scan stands in the first column only at the start of the text, behind a line feed or behind a
linemarker, and its indentation is then still empty. `InStep` is the invariant that says so, and
`Move.inStep` carries it over every piece.
-/

namespace DreamLexer

theorem Options.effectiveTabWidth_pos (o : Options) : 1 ≤ o.effectiveTabWidth.toNat := by
  unfold effectiveTabWidth
  split
  · decide
  · next wide =>
    split
    · decide
    · rw [UInt32.lt_iff_toNat_lt] at wide
      exact Nat.le_of_not_lt wide

namespace Position

variable {tabWidth : UInt32} {p : Position}

/-- A position with a column that no character before the first one has. -/
def Counted (p : Position) : Prop := 1 ≤ p.column.toNat

theorem isLineStart_iff : p.isLineStart ↔ p.column.toNat = 1 := by
  rw [isLineStart, beq_iff_eq, ← UInt32.toNat_inj]
  rfl

/-- Only a line feed leads to the first column. -/
theorem isLineStart_advance {c : Char} (width : 1 ≤ tabWidth.toNat) (counted : p.Counted) :
    (p.advance tabWidth c).isLineStart ↔ c = '\n' := by
  rw [isLineStart_iff]
  by_cases newline : c = '\n'
  · simp [newline, advance]
  · have grows : 1 ≤ if c = '\t' then tabWidth.toNat else 1 := by split <;> omega
    unfold Counted at counted
    rw [toNat_column_advance newline, counterMax]
    simp only [newline, iff_false]
    omega

theorem counted_advanceOver {text : List Char} (counted : p.Counted) :
    (p.advanceOver tabWidth text).Counted := by
  unfold Counted at counted ⊢
  have first : 1 ≤ if '\n' ∈ text then 1 else p.column.toNat := by split <;> omega
  rw [toNat_column_advanceOver, counterMax]
  omega

/-- Passing text leads to the first column just if the text ends with a line feed. -/
theorem isLineStart_advanceOver {text : List Char} {c : Char} (width : 1 ≤ tabWidth.toNat)
    (counted : p.Counted) (last : text.getLast? = some c) :
    (p.advanceOver tabWidth text).isLineStart ↔ c = '\n' := by
  obtain ⟨init, rfl⟩ := List.getLast?_eq_some_iff.1 last
  rw [advanceOver_append]
  exact isLineStart_advance width (counted_advanceOver counted)

end Position

/-- What holds of a scanner that has passed `before`. -/
structure Scanner.InStep (before : List Char) (s : Scanner) : Prop where
  counted : s.cursor.point.Counted
  /-- The first column is where a line of the text starts, or the end behind the last line. -/
  line_start : s.cursor.point.isLineStart →
    s.cursor.rest = [] ∨ before = [] ∨ before.getLast? = some '\n'
  /-- In the first column no tab of the line has been read. -/
  unindented : s.cursor.point.isLineStart → s.layout.indent = some 0
  /-- No word is cut in two. -/
  seam : ∀ c, before.getLast? = some c → Lexeme.isWordPart c →
    Lexeme.NextIs (fun d => ¬ Lexeme.isWordPart d) s.cursor.rest

theorem Scanner.inStep_start (unit : String) (text : List Char) :
    (Scanner.start unit text).InStep [] where
  counted := Nat.le_refl 1
  line_start _ := .inr (.inl rfl)
  unindented _ := rfl
  seam := by simp

theorem not_isWordPart_of_isPassed {inIndentation : Bool} {c : Char}
    (h : Scanner.isPassed inIndentation c) : c ≠ '\n' ∧ Lexeme.isWordPart c = false := by
  simp only [Scanner.isPassed, Bool.or_eq_true, Bool.and_eq_true, beq_iff_eq] at h
  rcases h with (rfl | rfl) | ⟨rfl, -⟩ <;> decide

variable {o : Options} {s t : Scanner} {p : Piece} {before : List Char}

namespace Move

theorem inStep_marker {c : Cursor} {l : Layout} {m : Linemarker} (stands : c.atDirective)
    (steady : (⟨c, l⟩ : Scanner).InStep before) :
    (⟨⟨c.linesBehind, ⟨m.unit, m.line, 1⟩⟩, l⟩ : Scanner).InStep (before ++ c.wholeLine) := by
  have starts : c.point.isLineStart := by
    simp only [Cursor.atDirective, Bool.and_eq_true] at stands
    exact stands.1
  have ending : c.linesBehind = [] ∨ (before ++ c.wholeLine).getLast? = some '\n' := by
    rw [Cursor.linesBehind, Cursor.wholeLine]
    cases behind : c.rest.dropWhile (· != '\n') with
    | nil => exact .inl rfl
    | cons d others =>
      have newline := Lexeme.nextIs_dropWhile (· != '\n') c.rest
      rw [behind, Lexeme.nextIs_cons] at newline
      obtain rfl : d = '\n' := by simpa using newline
      exact .inr (by simp)
  refine ⟨Nat.le_refl 1, ?_, fun _ => steady.unindented starts, ?_⟩
  · intro _
    exact ending.imp id .inr
  · intro d last word
    rcases ending with nothing | newline
    · simp only [nothing]
      exact Lexeme.nextIs_nil
    · rw [newline] at last
      cases last
      exact absurd word (by decide)

/-- Behind a text that does not end with a line feed no line starts, which leaves the seam. -/
theorem inStep_of_getLast? {text rest : List Char} {point : Position} {l : Layout} {c : Char}
    (counted : point.Counted) (last : text.getLast? = some c) (newline : c ≠ '\n')
    (seam : Lexeme.isWordPart c → Lexeme.NextIs (fun d => ¬ Lexeme.isWordPart d) rest) :
    (⟨⟨rest, point.advanceOver o.effectiveTabWidth text⟩, l⟩ : Scanner).InStep
      (before ++ text) := by
  have off : ¬ (point.advanceOver o.effectiveTabWidth text).isLineStart := by
    rwa [Position.isLineStart_advanceOver o.effectiveTabWidth_pos counted last]
  refine ⟨Position.counted_advanceOver counted, fun starts => absurd starts off,
    fun starts => absurd starts off, ?_⟩
  intro d last' word
  rw [List.getLast?_append, last] at last'
  cases last'
  exact seam word

theorem inStep_blanks (steady : s.InStep before) :
    (s.passBlanks o).InStep
      (before ++ s.cursor.rest.takeWhile (Scanner.isPassed s.layout.inIndentation)) := by
  obtain ⟨⟨rest, point⟩, l⟩ := s
  unfold Scanner.passBlanks
  cases last : (rest.takeWhile (Scanner.isPassed l.inIndentation)).getLast? with
  | none =>
    have nothing := List.getLast?_eq_none_iff.1 last
    have all : rest.dropWhile (Scanner.isPassed l.inIndentation) = rest := by
      have whole : rest.takeWhile (Scanner.isPassed l.inIndentation) ++
        rest.dropWhile (Scanner.isPassed l.inIndentation) = rest := List.takeWhile_append_dropWhile
      rwa [nothing, List.nil_append] at whole
    have indent : l.passTabs 0 = l := by simp [Layout.passTabs]
    simpa [nothing, all, Cursor.pass, indent] using steady
  | some c =>
    have passed := List.all_eq_true.1 List.all_takeWhile c (List.mem_of_getLast? last)
    obtain ⟨newline, word⟩ := not_isWordPart_of_isPassed passed
    exact inStep_of_getLast? steady.counted last newline (fun part => by simp [word] at part)

theorem inStep_lexeme {rest raw : List Char} {point : Position} {l : Layout} {lexeme : Lexeme}
    {span : Span} (spelled : lexeme.Spelled raw rest)
    (steady : (⟨⟨raw ++ rest, point⟩, l⟩ : Scanner).InStep before) :
    (⟨⟨rest, point.advanceOver o.effectiveTabWidth raw⟩, (l.place o lexeme span).2⟩ :
      Scanner).InStep (before ++ raw) := by
  obtain ⟨c, last, breaks, seam⟩ := spelled.getLast?
  by_cases newline : c = '\n'
  · obtain rfl := breaks newline
    obtain rfl : raw = ['\n'] := spelled
    refine ⟨Position.counted_advanceOver steady.counted, fun _ => .inr (.inr (by simp)), ?_, ?_⟩
    · intro _
      simp only [Layout.place, Layout.newline]
      split <;> rfl
    · intro d last' word
      rw [List.getLast?_concat] at last'
      cases last'
      exact absurd word (by decide)
  · exact inStep_of_getLast? steady.counted last newline seam

end Move

/-- A move keeps in step. -/
theorem Move.inStep (move : Move o s p t) (steady : s.InStep before) :
    t.InStep (before ++ p.raw) := by
  cases move with
  | marker stands parsed => exact inStep_marker stands steady
  | blanks clear => exact inStep_blanks steady
  | lexeme spelled covers =>
    subst covers
    exact inStep_lexeme spelled steady

/-- Moves keep in step. -/
theorem Moves.inStep {pieces : List Piece} (moves : Moves o s pieces t) (steady : s.InStep before) :
    t.InStep (before ++ Piece.text pieces) := by
  induction moves generalizing before with
  | refl => simpa using steady
  | head move _ ih => simpa [List.append_assoc] using ih (move.inStep steady)

end DreamLexer
