import DreamLexer.Proofs.Scan.Place
import Mathlib.Data.Prod.Lex

/-!
# The order of spans

As long as no counter has come to its largest value, every character moves the position on.
`unitPoints` are the positions that a scan goes through, `Moves.order_le` says that they go forward
between linemarkers, and `spans_ordered` what that means for the spans of tokens.
-/

namespace DreamLexer

namespace Position

/-- The place in the unit, ordered by lines and within a line by columns. -/
def order (p : Position) : Nat ×ₗ Nat := toLex (p.line.toNat, p.column.toNat)

/-- Neither counter has come to its largest value. -/
def Counts (p : Position) : Prop := p.line.toNat < counterMax ∧ p.column.toNat < counterMax

instance (p : Position) : Decidable p.Counts := inferInstanceAs (Decidable (_ ∧ _))

variable {tabWidth : UInt32} {p : Position}

theorem order_lt_iff {q : Position} :
    p.order < q.order ↔
      p.line.toNat < q.line.toNat ∨
        p.line.toNat = q.line.toNat ∧ p.column.toNat < q.column.toNat :=
  Prod.Lex.toLex_lt_toLex

/-- A character moves the position on. -/
theorem order_lt_advance (width : 1 ≤ tabWidth.toNat) (counts : p.Counts) (c : Char) :
    p.order < (p.advance tabWidth c).order := by
  obtain ⟨line, column⟩ := counts
  rw [order_lt_iff, toNat_line_advance]
  by_cases newline : c = '\n'
  · left
    rw [if_pos newline]
    omega
  · right
    have grows : 1 ≤ if c = '\t' then tabWidth.toNat else 1 := by split <;> omega
    rw [if_neg newline, toNat_column_advance newline]
    omega

/-- Text moves the position on, if there is any. -/
theorem order_le_advanceOver (width : 1 ≤ tabWidth.toNat) {text : List Char}
    (counts : ∀ q ∈ text.scanl (advance tabWidth) p, q.Counts) :
    p.order ≤ (p.advanceOver tabWidth text).order ∧
      (text ≠ [] → p.order < (p.advanceOver tabWidth text).order) := by
  induction text generalizing p with
  | nil => exact ⟨le_refl _, fun filled => absurd rfl filled⟩
  | cons c text ih =>
    rw [List.scanl_cons] at counts
    obtain ⟨here, behind⟩ := List.forall_mem_cons.1 counts
    have further : p.order < ((p.advance tabWidth c).advanceOver tabWidth text).order :=
      lt_of_lt_of_le (order_lt_advance width here c) (ih behind).1
    rw [advanceOver_cons]
    exact ⟨le_of_lt further, fun _ => further⟩

end Position

namespace Piece

/-- Where the scan stands behind a piece that starts at `start`. -/
def stop (tabWidth : UInt32) (start : Position) : Piece → Position
  | .marker _ m => ⟨m.unit, m.line, 1⟩
  | .blanks raw => start.advanceOver tabWidth raw
  | .lexeme raw _ _ => start.advanceOver tabWidth raw

/-- The positions that a scan goes through while it passes a piece that starts at `start`: those of
all characters, but no more than its start if it is a linemarker, whose characters are not
counted. -/
def points (tabWidth : UInt32) (start : Position) : Piece → List Position
  | .marker _ _ => [start]
  | .blanks raw => raw.scanl (Position.advance tabWidth) start
  | .lexeme raw _ _ => raw.scanl (Position.advance tabWidth) start

/-- The positions that a scan goes through from `start` on while it passes pieces. -/
def allPoints (tabWidth : UInt32) : Position → List Piece → List Position
  | start, [] => [start]
  | start, p :: pieces =>
    p.points tabWidth start ++ allPoints tabWidth (p.stop tabWidth start) pieces

end Piece

/-- The positions that the scan of a unit goes through on its way over the unit's pieces. -/
def unitPoints (o : Options) (unit text : String) : List Position :=
  Piece.allPoints o.effectiveTabWidth (.startOf unit) (unitPieces o unit text)

variable {o : Options} {s t u : Scanner} {p : Piece} {pieces read others : List Piece}

theorem Move.point_eq_stop (move : Move o s p t) :
    t.cursor.point = p.stop o.effectiveTabWidth s.cursor.point := by
  cases move with
  | marker stands parsed => rfl
  | blanks clear => rfl
  | lexeme spelled covers =>
    subst covers
    rfl

/-- A piece that is no linemarker moves the position on within its unit, if it has any text. -/
theorem Move.order_le (move : Move o s p t) (unmarked : ∀ raw m, p ≠ .marker raw m)
    (counts : ∀ q ∈ p.points o.effectiveTabWidth s.cursor.point, q.Counts) :
    s.cursor.point.unit = t.cursor.point.unit ∧ s.cursor.point.order ≤ t.cursor.point.order ∧
      (p.raw ≠ [] → s.cursor.point.order < t.cursor.point.order) := by
  rw [move.point_eq_stop]
  cases p with
  | marker raw m => exact absurd rfl (unmarked raw m)
  | blanks raw =>
    exact ⟨(Position.unit_advanceOver _ raw).symm,
      Position.order_le_advanceOver o.effectiveTabWidth_pos counts⟩
  | lexeme raw lexeme span =>
    exact ⟨(Position.unit_advanceOver _ raw).symm,
      Position.order_le_advanceOver o.effectiveTabWidth_pos counts⟩

/-- A token takes some text. -/
theorem Move.raw_ne_nil (move : Move o s p t) {token : Token} (own : p.token? o = some token) :
    p.raw ≠ [] := by
  cases move with
  | marker stands parsed => simp [Piece.token?] at own
  | blanks clear => simp [Piece.token?] at own
  | lexeme spelled covers => exact spelled.ne_nil

namespace Moves

/-- The positions on the way over the first pieces, and on the way behind them, are positions on the
way over all of them. -/
theorem allPoints_append (moves : Moves o s read t) (others : List Piece) :
    ∃ before, Piece.allPoints o.effectiveTabWidth s.cursor.point (read ++ others) =
      before ++ Piece.allPoints o.effectiveTabWidth t.cursor.point others := by
  induction moves with
  | refl => exact ⟨[], rfl⟩
  | head move _ ih =>
    obtain ⟨before, rest⟩ := ih
    rw [move.point_eq_stop] at rest
    rw [List.cons_append, Piece.allPoints, rest, ← List.append_assoc]
    exact ⟨_, rfl⟩

/-- Between linemarkers the scan goes forward. -/
theorem order_le (moves : Moves o s pieces t) (unmarked : ∀ raw m, .marker raw m ∉ pieces)
    (counts : ∀ q ∈ Piece.allPoints o.effectiveTabWidth s.cursor.point (pieces ++ others),
      q.Counts) :
    s.cursor.point.unit = t.cursor.point.unit ∧ s.cursor.point.order ≤ t.cursor.point.order := by
  induction moves with
  | refl => exact ⟨rfl, le_refl _⟩
  | @head s t u p pieces move _ ih =>
    rw [List.cons_append, Piece.allPoints, List.forall_mem_append, ← move.point_eq_stop] at counts
    have here : ∀ raw m, p ≠ .marker raw m := by
      intro raw m same
      exact unmarked raw m (same ▸ List.mem_cons_self)
    have behind : ∀ raw m, .marker raw m ∉ pieces := fun raw m member =>
      unmarked raw m (List.mem_cons_of_mem p member)
    obtain ⟨unit, first, -⟩ := move.order_le here counts.1
    obtain ⟨unit', others⟩ := ih behind counts.2
    exact ⟨unit.trans unit', le_trans first others⟩

end Moves

section

variable {unit text : String} {first second : Token} {before between behind : List Token}

/-- The pieces of two tokens stand in the order of the tokens. -/
theorem pieces_of_tokens
    (stands : ((Scanner.start unit text.toList).run o).tokens =
      before ++ first :: (between ++ second :: behind))
    (spanned : first.span.isSome) (spanned' : second.span.isSome) :
    ∃ read p middle q others, unitPieces o unit text = read ++ p :: (middle ++ q :: others) ∧
      p.token? o = some first ∧ q.token? o = some second ∧
      before.filter (·.span.isSome) = read.filterMap (·.token? o) ∧
      between.filter (·.span.isSome) = middle.filterMap (·.token? o) := by
  obtain ⟨read, p, behind_p, pieces, own, order⟩ := piece_of_token stands spanned
  have stands' : ((Scanner.start unit text.toList).run o).tokens =
      (before ++ first :: between) ++ second :: behind := by simpa using stands
  obtain ⟨read', q, others, pieces', own', order'⟩ := piece_of_token stands' spanned'
  rw [List.filter_append, order, List.filter_cons_of_pos (by exact spanned)] at order'
  -- More tokens were handed out before the second one, so its piece comes later.
  rcases List.append_eq_append_iff.1 (pieces.symm.trans pieces') with
    ⟨later, rfl, same⟩ | ⟨later, rfl, same⟩
  · cases later with
    | nil => simp at order'
    | cons p' middle =>
      obtain ⟨rfl, rfl⟩ := List.cons.inj same
      rw [List.filterMap_append, List.filterMap_cons_some own] at order'
      have counted : between.filter (·.span.isSome) = middle.filterMap (·.token? o) := by
        simpa using order'
      exact ⟨read, p, middle, q, others, pieces, own, own', order, counted⟩
  · exfalso
    have longer := congrArg List.length order'
    simp only [List.filterMap_append, List.length_append, List.length_cons] at longer
    omega

/-- The span of a token leads forward within one unit. -/
theorem span_of_points (counts : ∀ q ∈ unitPoints o unit text, q.Counts)
    (pieces : unitPieces o unit text = read ++ p :: others) (own : p.token? o = some first) :
    ∃ s t v, Moves o (.start unit text.toList) read s ∧ Moves o t others v ∧
      first.span = some ⟨s.cursor.point, t.cursor.point⟩ ∧
      s.cursor.point.unit = t.cursor.point.unit ∧ s.cursor.point.order < t.cursor.point.order ∧
      ∀ q ∈ Piece.allPoints o.effectiveTabWidth t.cursor.point others, q.Counts := by
  obtain ⟨stop, whole⟩ := moves_unitPieces o unit text
  rw [pieces] at whole
  obtain ⟨s, start, later⟩ := whole.split
  cases later with
  | @head _ t _ _ _ move rest =>
    obtain ⟨earlier, points⟩ := start.allPoints_append (p :: others)
    rw [unitPoints, pieces, show Position.startOf unit =
      (Scanner.start unit text.toList).cursor.point from rfl, points, List.forall_mem_append,
      Piece.allPoints, List.forall_mem_append, ← move.point_eq_stop] at counts
    have unmarked : ∀ raw m, p ≠ .marker raw m := by
      rintro raw m rfl
      simp [Piece.token?] at own
    obtain ⟨unit_eq, -, further⟩ := move.order_le unmarked counts.2.1
    exact ⟨s, t, stop, start, rest, move.span_of_token? own, unit_eq,
      further (move.raw_ne_nil own), counts.2.2⟩

/-- Spans are not empty, lead forward within one unit and follow each other, as long as no counter
comes to its largest value while the unit is scanned. In whatever way tokens are pulled, every span
that is handed out starts before it ends, and in the same unit. Of two tokens with a span, such as
those between which no other one has a span, the first one ends no later than the second one starts,
unless a linemarker was passed between their pieces. -/
theorem spans_ordered (counts : ∀ q ∈ unitPoints o unit text, q.Counts) (told : Diagnostics)
    (requests : List Request) :
    let tokens := Lexer.handedOut ((Lexer.start o unit text told).askAll requests).1
    (∀ token ∈ tokens, ∀ span, token.span = some span →
      span.start.unit = span.stop.unit ∧ span.start.order < span.stop.order ∧
        span.isEmpty = false) ∧
    ∀ before first between second behind span span',
      tokens = before ++ first :: (between ++ second :: behind) →
      first.span = some span → second.span = some span' →
        ∃ read p middle q others,
          unitPieces o unit text = read ++ p :: (middle ++ q :: others) ∧
          p.token? o = some first ∧ q.token? o = some second ∧
          before.filter (·.span.isSome) = read.filterMap (·.token? o) ∧
          between.filter (·.span.isSome) = middle.filterMap (·.token? o) ∧
          ((∀ raw m, .marker raw m ∉ middle) →
            span.stop.unit = span'.start.unit ∧ span.stop.order ≤ span'.start.order) := by
  intro tokens
  have handed : tokens = ((Scanner.start unit text.toList).run o).tokens.take requests.length :=
    Lexer.handedOut_askAll (Lexer.awaits_start o unit text told) requests
  have whole : ((Scanner.start unit text.toList).run o).tokens =
      tokens ++ ((Scanner.start unit text.toList).run o).tokens.drop requests.length := by
    rw [handed, List.take_append_drop]
  constructor
  · intro token member span spanned
    obtain ⟨before, behind, stands⟩ := List.append_of_mem member
    rw [stands, List.append_assoc, List.cons_append] at whole
    obtain ⟨read, p, others, pieces, own, -⟩ := piece_of_token whole (by simp [spanned])
    obtain ⟨s, t, v, -, -, place, unit_eq, further, -⟩ := span_of_points counts pieces own
    obtain rfl : span = ⟨s.cursor.point, t.cursor.point⟩ :=
      Option.some.inj (spanned.symm.trans place)
    refine ⟨unit_eq, further, ?_⟩
    rw [Span.isEmpty, beq_eq_false_iff_ne]
    intro same
    exact absurd (congrArg Position.order same) (ne_of_lt further)
  · intro before first between second behind span span' stands spanned spanned'
    rw [stands] at whole
    simp only [List.append_assoc, List.cons_append] at whole
    obtain ⟨read, p, middle, q, others, pieces, own, own', order, order'⟩ :=
      pieces_of_tokens whole (by simp [spanned]) (by simp [spanned'])
    refine ⟨read, p, middle, q, others, pieces, own, own', order, order', ?_⟩
    intro unmarked
    obtain ⟨s, t, v, -, later, place, -, -, counts'⟩ := span_of_points counts pieces own
    obtain rfl : span = ⟨s.cursor.point, t.cursor.point⟩ :=
      Option.some.inj (spanned.symm.trans place)
    obtain ⟨u, between_pieces, last⟩ := later.split
    cases last with
    | @head _ w _ _ _ move _ =>
      have place' := move.span_of_token? own'
      obtain rfl : span' = ⟨u.cursor.point, w.cursor.point⟩ :=
        Option.some.inj (spanned'.symm.trans place')
      exact between_pieces.order_le unmarked counts'

/-- A literal over two lines, and behind it a linemarker that leads back to the first one. -/
theorem spans_ordered_of_marked_text :
    (∀ q ∈ unitPoints .standard "a.dm" "x \x27\ny\x27\n# 1 \x22a.dm\x22\nz", q.Counts) ∧
    Position.order ⟨"a.dm", 1, 3⟩ < Position.order ⟨"a.dm", 2, 3⟩ ∧
    ∃ read p middle q others,
      unitPieces .standard "a.dm" "x \x27\ny\x27\n# 1 \x22a.dm\x22\nz" =
        read ++ p :: (middle ++ q :: others) ∧
      p.token? .standard = some ⟨.ident, some "x", some ⟨⟨"a.dm", 1, 1⟩, ⟨"a.dm", 1, 2⟩⟩⟩ ∧
      ((∀ raw m, .marker raw m ∉ middle) →
        Position.order ⟨"a.dm", 1, 2⟩ ≤ Position.order ⟨"a.dm", 1, 3⟩) := by
  have counts :
      ∀ q ∈ unitPoints .standard "a.dm" "x \x27\ny\x27\n# 1 \x22a.dm\x22\nz", q.Counts := by
    decide +kernel
  have handed : Lexer.handedOut ((Lexer.start .standard "a.dm"
      "x \x27\ny\x27\n# 1 \x22a.dm\x22\nz" .empty).askAll [.next, .nextToken, .next]).1 =
      [] ++ ⟨.ident, some "x", some ⟨⟨"a.dm", 1, 1⟩, ⟨"a.dm", 1, 2⟩⟩⟩ ::
        ([] ++ ⟨.singleQuoted, some "\ny", some ⟨⟨"a.dm", 1, 3⟩, ⟨"a.dm", 2, 3⟩⟩⟩ ::
          [.newline]) := by
    decide +kernel
  obtain ⟨forward, following⟩ := spans_ordered counts .empty [.next, .nextToken, .next]
  have literal := forward ⟨.singleQuoted, some "\ny", some ⟨⟨"a.dm", 1, 3⟩, ⟨"a.dm", 2, 3⟩⟩⟩
    (by rw [handed]; simp) _ rfl
  obtain ⟨read, p, middle, q, others, pieces, own, -, -, -, ordered⟩ :=
    following _ _ _ _ _ _ _ handed rfl rfl
  exact ⟨counts, literal.2.1, read, p, middle, q, others, pieces, own,
    fun unmarked => (ordered unmarked).2⟩

end

end DreamLexer
