import DreamLexer.Proofs.Scan.Place
import DreamLexer.Proofs.Scan.Simulation

/-!
# Scans of one text

The position of a scan and the width of its tabs matter to it only in so far as a directive has to
start in the first column. Two scanners in front of the same text, with the same layout and both at
the start of a line or both within one, are `Parallel`, and `Move.parallel` says that they stay so.
-/

namespace DreamLexer

/-- The options with another width of tabs. -/
def Options.withTabs (o : Options) (width : UInt32) : Options := { o with tabWidth := width }

namespace Position

variable {width width' : UInt32} {p q : Position}

/-- Text leads both from the start of a line or from within one to the same. -/
theorem isLineStart_advanceOver_congr (text : List Char) (wide : 1 ≤ width.toNat)
    (wide' : 1 ≤ width'.toNat) (counted : p.Counted) (counted' : q.Counted)
    (starts : p.isLineStart = q.isLineStart) :
    (p.advanceOver width text).isLineStart = (q.advanceOver width' text).isLineStart := by
  cases last : text.getLast? with
  | none =>
    obtain rfl := List.getLast?_eq_none_iff.1 last
    exact starts
  | some c =>
    rw [Bool.eq_iff_iff, isLineStart_advanceOver wide counted last,
      isLineStart_advanceOver wide' counted' last]

/-- The width of a tab moves no character to another line. -/
theorem line_advanceOver_congr {text : List Char} (line : p.line = q.line) :
    (p.advanceOver width text).line = (q.advanceOver width' text).line := by
  rw [← UInt32.toNat_inj, toNat_line_advanceOver, toNat_line_advanceOver, line]

end Position

/-- Two scanners that have the same to read, and differ in their positions at most. -/
structure Scanner.Parallel (s s' : Scanner) : Prop where
  text : s.cursor.rest = s'.cursor.rest
  layout : s.layout = s'.layout
  counted : s.cursor.point.Counted
  counted' : s'.cursor.point.Counted
  starts : s.cursor.point.isLineStart = s'.cursor.point.isLineStart

/-- Pieces that differ in the span of a lexeme at most. -/
inductive Piece.Parallel : Piece → Piece → Prop where
  | marker (raw : List Char) (m : Linemarker) : Parallel (.marker raw m) (.marker raw m)
  | blanks (raw : List Char) : Parallel (.blanks raw) (.blanks raw)
  | lexeme (raw : List Char) (lexeme : Lexeme) (span span' : Span) :
      Parallel (.lexeme raw lexeme span) (.lexeme raw lexeme span')

/-- The kind and the payload of a token, and whether it has a span. -/
def Token.outline (t : Token) : TokenKind × Option String × Bool :=
  (t.kind, t.payload, t.span.isSome)

/-- Tokens that differ in their spans at most, and have one alike. -/
def Token.SameOutline (t t' : Token) : Prop := t.outline = t'.outline

theorem Token.SameOutline.refl (t : Token) : t.SameOutline t := Eq.refl t.outline

variable {o : Options} {width : UInt32} {s s' t : Scanner} {p p' : Piece}

/-- The token of a lexeme depends on where it was read in its span alone. -/
theorem Lexeme.token?_withTabs (lexeme : Lexeme) (span span' : Span) :
    lexeme.token? (o.withTabs width) span' =
      (lexeme.token? o span).map fun t => { t with span := some span' } := by
  cases lexeme with
  | lineBreak => rfl
  | separator => rfl
  | comment text =>
    by_cases comments : o.emitComments <;> simp [token?, Options.withTabs, comments]
  | word text => rfl
  | literal quote text => rfl
  | punctuation kind => rfl

namespace Piece.Parallel

/-- The tokens of parallel pieces differ in their spans at most. -/
theorem token?_eq (h : p.Parallel p') :
    (p'.token? (o.withTabs width)).map Token.outline = (p.token? o).map Token.outline := by
  cases h with
  | marker raw m => rfl
  | blanks raw => rfl
  | lexeme raw lexeme span span' =>
    simp only [Piece.token?, Lexeme.token?_withTabs lexeme span span', Option.map_map]
    apply Option.map_congr
    intro t own
    simp [Token.outline, Lexeme.span_of_token? own]

/-- Layouts treat parallel pieces alike. -/
theorem similar {T : Token → Token → Prop} (h : p.Parallel p')
    (own : ∀ t t', p.token? o = some t → p'.token? (o.withTabs width) = some t' →
      t.SameOutline t' → T t t') :
    p.Similar T o (o.withTabs width) p' := by
  have same : (p'.token? (o.withTabs width)).map Token.outline = (p.token? o).map Token.outline :=
    h.token?_eq
  cases h with
  | marker raw m => exact .marker
  | blanks raw => exact .blanks rfl
  | lexeme raw lexeme span span' =>
    cases settles : lexeme.settles with
    | false => exact .breaking settles
    | true =>
      refine .settling settles settles ?_
      simp only [Piece.token?] at own same
      cases found : lexeme.token? o span with
      | none =>
        rw [Lexeme.token?_withTabs lexeme span span', found]
        exact .nil
      | some t =>
        obtain ⟨t', found', outline⟩ : ∃ t', lexeme.token? (o.withTabs width) span' = some t' ∧
            t'.outline = t.outline := by simpa [found] using same
        rw [found']
        exact .cons (own t t' found found' outline.symm) .nil

/-- Parallel pieces leave the same layout. -/
theorem read_eq (h : p.Parallel p') (l : Layout) :
    (l.read o p).2 = (l.read (o.withTabs width) p').2 :=
  (Layout.read_similar (h.similar (T := fun _ _ => True) fun _ _ _ _ _ => trivial)
    (fun _ _ => trivial) rfl l).2

end Piece.Parallel

theorem Scanner.Parallel.atDirective (h : s.Parallel s') :
    s'.cursor.atDirective = s.cursor.atDirective := by
  rw [Cursor.atDirective, Cursor.atDirective, h.text, h.starts]

/-- A scan moves as one that is parallel to it, and stays on the same line as that. -/
theorem Move.parallel (move : Move o s p t) (width : UInt32) (h : s.Parallel s') :
    ∃ p' t', Move (o.withTabs width) s' p' t' ∧ t.Parallel t' ∧ p.Parallel p' ∧
      (s.cursor.point.line = s'.cursor.point.line →
        t.cursor.point.line = t'.cursor.point.line) := by
  have directive := h.atDirective
  obtain ⟨⟨rest, point⟩, l⟩ := s'
  obtain ⟨text, layout, counted, counted', starts⟩ := h
  have starts_behind (taken : List Char) :=
    Position.isLineStart_advanceOver_congr taken o.effectiveTabWidth_pos
      (o.withTabs width).effectiveTabWidth_pos counted counted' starts
  cases move with
  | @marker c l m stands parsed =>
    obtain ⟨rest, point'⟩ := c
    obtain rfl : rest = _ := text
    obtain rfl : l = _ := layout
    exact ⟨_, _, .marker (directive.trans stands) parsed,
      ⟨rfl, rfl, Nat.le_refl 1, Nat.le_refl 1, rfl⟩, .marker _ m, fun _ => rfl⟩
  | blanks clear =>
    obtain ⟨⟨rest, point'⟩, l⟩ := s
    obtain rfl : rest = _ := text
    obtain rfl : l = _ := layout
    refine ⟨_, _, .blanks (directive.trans clear), ⟨rfl, rfl, ?_, ?_, ?_⟩, .blanks _, ?_⟩
    · exact Position.counted_advanceOver counted
    · exact Position.counted_advanceOver counted'
    · exact starts_behind _
    · exact Position.line_advanceOver_congr
  | @lexeme behind raw point' l lexeme span spelled covers =>
    obtain rfl : raw ++ behind = _ := text
    obtain rfl : l = _ := layout
    subst covers
    have same : Piece.Parallel (.lexeme raw lexeme _) (.lexeme raw lexeme _) :=
      .lexeme raw lexeme ⟨point', point'.advanceOver o.effectiveTabWidth raw⟩
        ⟨point, point.advanceOver (o.withTabs width).effectiveTabWidth raw⟩
    refine ⟨_, _, .lexeme spelled rfl, ⟨rfl, same.read_eq l, ?_, ?_, ?_⟩, same, ?_⟩
    · exact Position.counted_advanceOver counted
    · exact Position.counted_advanceOver counted'
    · exact starts_behind _
    · exact Position.line_advanceOver_congr

/-- Parallel scans are stuck at the same faults. -/
theorem Scanner.Stuck.parallel {fault : Fault} (stuck : s.Stuck fault) (h : s.Parallel s') :
    s'.Stuck fault := by
  have directive := h.atDirective
  obtain ⟨⟨rest, point⟩, l⟩ := s
  obtain ⟨⟨rest', point'⟩, l'⟩ := s'
  obtain ⟨text, layout, -⟩ := h
  obtain rfl : rest = rest' := text
  obtain rfl : l = l' := layout
  cases stuck with
  | directive stands unparsed => exact .directive (directive.trans stands) unparsed
  | lexeme ready here unread =>
    exact .lexeme ⟨directive.trans ready.clear, ready.solid⟩ here unread

/-- Errors that differ in their place at most. -/
def LexError.SameMessage (e e' : LexError) : Prop := e.kind = e'.kind ∧ e.text = e'.text

/-- Parallel scans hand out the same, but for positions. -/
theorem Scanner.parallel_simulation (o : Options) (width : UInt32) :
    Simulation o (o.withTabs width) Token.SameOutline LexError.SameMessage Parallel where
  counted h := ⟨h.counted, h.counted'⟩
  move := by
    intro s s' p t h move
    obtain ⟨p', t', move', behind, same, -⟩ := move.parallel width h
    have similar : p.Similar Token.SameOutline o (o.withTabs width) p' :=
      same.similar fun _ _ _ _ outline => outline
    refine ⟨[p'], t', .single move', behind, ?_⟩
    rw [Layout.tokens_singleton, ← h.layout]
    exact (Layout.read_similar similar (fun t _ => .refl t) rfl s.layout).1
  finished := by
    intro s s' h done
    refine ⟨h.text.symm.trans done, ?_⟩
    rw [← h.layout]
    exact Layout.finish_similar (fun t _ => .refl t) rfl s.layout
  stuck h stuck := ⟨_, stuck.parallel h, rfl, rfl⟩

theorem Scanner.run_parallel (h : s.Parallel s') :
    List.Forall₂ Token.SameOutline (s.run o).tokens (s'.run o).tokens ∧
      Ending.Related LexError.SameMessage (s.run o).ending (s'.run o).ending :=
  (parallel_simulation o o.tabWidth).run h

end DreamLexer
