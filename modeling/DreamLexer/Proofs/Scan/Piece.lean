import DreamLexer.Lexer.Basic
import DreamLexer.Proofs.Lexeme.Grammar

/-!
# The pieces of a scan

A scan passes a text piece by piece: linemarkers, blanks and lexemes. `Scanner.pieces` lists them,
`Move` says what passing one does, and `run_spec` says that a run is its moves and then an end. All
later statements about runs follow the moves, of which there are three.
-/

namespace DreamLexer

/-- A stretch of text that a scan passes in one go. -/
inductive Piece where
  /-- A linemarker with its line feed, which only the last line may lack. -/
  | marker (raw : List Char) (marker : Linemarker)
  /-- The blanks before a lexeme. -/
  | blanks (raw : List Char)
  /-- A lexeme and the span it was read from. -/
  | lexeme (raw : List Char) (lexeme : Lexeme) (span : Span)
deriving DecidableEq

namespace Piece

/-- The piece as it stands in the text. -/
def raw : Piece → List Char
  | .marker raw _ => raw
  | .blanks raw => raw
  | .lexeme raw _ _ => raw

/-- The text that pieces make up. -/
def text (pieces : List Piece) : List Char := pieces.flatMap raw

@[simp] theorem text_nil : text [] = [] := rfl

@[simp] theorem text_cons (p : Piece) (pieces : List Piece) :
    text (p :: pieces) = p.raw ++ text pieces := rfl

@[simp] theorem text_append (first second : List Piece) :
    text (first ++ second) = text first ++ text second := List.flatMap_append

/-- The token of the piece, if it has one of its own. New lines are not counted. -/
def token? (o : Options) : Piece → Option Token
  | .lexeme _ found span => found.token? o span
  | _ => none

end Piece

namespace Cursor

/-- The line with its line feed, if there is one. -/
def wholeLine (c : Cursor) : List Char := c.line ++ (c.rest.dropWhile (· != '\n')).take 1

theorem wholeLine_append (c : Cursor) : c.wholeLine ++ c.linesBehind = c.rest := by
  rw [wholeLine, List.append_assoc, linesBehind, ← List.drop_one, List.take_append_drop, line,
    List.takeWhile_append_dropWhile]

/-- The linemarkers that stand here. -/
def markerPieces (c : Cursor) : List Piece :=
  if _h : c.atDirective then
    match Linemarker.parse? c.line with
    | none => []
    | some marker =>
      .marker c.wholeLine marker :: markerPieces ⟨c.linesBehind, ⟨marker.unit, marker.line, 1⟩⟩
  else []
termination_by c.rest.length
decreasing_by exact length_linesBehind_lt _h

end Cursor

namespace Scanner

/-- The lexeme that stands here, if it can be read. -/
def lexemePieces (o : Options) (s : Scanner) : List Piece :=
  match s.cursor.rest with
  | [] => []
  | c :: rest =>
    match Lexeme.read c rest with
    | .error _ => []
    | .ok r =>
      [.lexeme r.raw r.lexeme
        ⟨s.cursor.point, s.cursor.point.advanceOver o.effectiveTabWidth r.raw⟩]

/-- The pieces that one step passes. -/
def stepPieces (o : Options) (s : Scanner) : List Piece :=
  s.cursor.markerPieces ++
    match s.cursor.followMarkers with
    | .error _ => []
    | .ok cursor =>
      .blanks (cursor.rest.takeWhile (isPassed s.layout.inIndentation)) ::
        (passBlanks o { s with cursor := cursor }).lexemePieces o

/-- The pieces that a run passes. -/
def pieces (o : Options) (s : Scanner) : List Piece :=
  match _h : s.step o with
  | .placed _ next => s.stepPieces o ++ pieces o next
  | .ended _ _ _ => s.stepPieces o
termination_by s.cursor.rest.length
decreasing_by exact length_rest_lt_of_step _h

end Scanner

/-- The pieces of a unit, up to the end or the first error. -/
def unitPieces (o : Options) (unit text : String) : List Piece :=
  (Scanner.start unit text.toList).pieces o

namespace Layout

/-- What passing a piece hands out and leaves. -/
def read (o : Options) (l : Layout) : Piece → List Token × Layout
  | .marker _ _ => ([], l)
  | .blanks raw => ([], l.passTabs (raw.count '\t'))
  | .lexeme _ lexeme span => l.place o lexeme span

/-- What passing pieces hands out. -/
def tokens (o : Options) : Layout → List Piece → List Token
  | _, [] => []
  | l, p :: pieces => (l.read o p).1 ++ tokens o (l.read o p).2 pieces

/-- What passing pieces leaves. -/
def after (o : Options) : Layout → List Piece → Layout
  | l, [] => l
  | l, p :: pieces => after o (l.read o p).2 pieces

variable {o : Options}

@[simp] theorem tokens_nil (l : Layout) : l.tokens o [] = [] := rfl

@[simp] theorem after_nil (l : Layout) : l.after o [] = l := rfl

theorem tokens_cons (l : Layout) (p : Piece) (pieces : List Piece) :
    l.tokens o (p :: pieces) = (l.read o p).1 ++ (l.read o p).2.tokens o pieces := rfl

theorem tokens_singleton (l : Layout) (p : Piece) : l.tokens o [p] = (l.read o p).1 := by
  rw [tokens_cons, tokens_nil, List.append_nil]

theorem after_cons (l : Layout) (p : Piece) (pieces : List Piece) :
    l.after o (p :: pieces) = (l.read o p).2.after o pieces := rfl

theorem tokens_append (l : Layout) (first second : List Piece) :
    l.tokens o (first ++ second) = l.tokens o first ++ (l.after o first).tokens o second := by
  induction first generalizing l with
  | nil => rfl
  | cons p first ih =>
    rw [List.cons_append, tokens_cons, tokens_cons, after_cons, ih, List.append_assoc]

end Layout

/-- Passing one piece. -/
inductive Move (o : Options) : Scanner → Piece → Scanner → Prop where
  | marker {c : Cursor} {l : Layout} {m : Linemarker} (stands : c.atDirective)
      (parsed : Linemarker.parse? c.line = some m) :
      Move o ⟨c, l⟩ (.marker c.wholeLine m) ⟨⟨c.linesBehind, ⟨m.unit, m.line, 1⟩⟩, l⟩
  | blanks {s : Scanner} (clear : s.cursor.atDirective = false) :
      Move o s (.blanks (s.cursor.rest.takeWhile (Scanner.isPassed s.layout.inIndentation)))
        (s.passBlanks o)
  | lexeme {rest raw : List Char} {point : Position} {l : Layout} {lexeme : Lexeme} {span : Span}
      (spelled : lexeme.Spelled raw rest)
      (covers : span = ⟨point, point.advanceOver o.effectiveTabWidth raw⟩) :
      Move o ⟨⟨raw ++ rest, point⟩, l⟩ (.lexeme raw lexeme span)
        ⟨⟨rest, span.stop⟩, (l.place o lexeme span).2⟩

/-- Passing one piece after the other. -/
inductive Moves (o : Options) : Scanner → List Piece → Scanner → Prop where
  | refl (s : Scanner) : Moves o s [] s
  | head {s t u : Scanner} {p : Piece} {pieces : List Piece} (first : Move o s p t)
      (others : Moves o t pieces u) : Moves o s (p :: pieces) u

variable {o : Options} {s t u : Scanner} {p : Piece} {pieces : List Piece}

/-- The piece is the text between the two scanners. -/
theorem Move.rest_eq (move : Move o s p t) : s.cursor.rest = p.raw ++ t.cursor.rest := by
  cases move with
  | marker stands parsed => exact (Cursor.wholeLine_append _).symm
  | blanks clear => exact List.takeWhile_append_dropWhile.symm
  | lexeme spelled covers => rfl

/-- The layout follows the piece alone. -/
theorem Move.layout_eq (move : Move o s p t) : t.layout = (s.layout.read o p).2 := by
  cases move <;> rfl

namespace Moves

theorem single (move : Move o s p t) : Moves o s [p] t := .head move (.refl t)

theorem append {second : List Piece} (first : Moves o s pieces t) (others : Moves o t second u) :
    Moves o s (pieces ++ second) u := by
  induction first with
  | refl => exact others
  | head move _ ih => exact .head move (ih others)

theorem rest_eq (moves : Moves o s pieces t) :
    s.cursor.rest = Piece.text pieces ++ t.cursor.rest := by
  induction moves with
  | refl => rfl
  | head move _ ih => rw [move.rest_eq, ih, Piece.text_cons, List.append_assoc]

theorem layout_eq (moves : Moves o s pieces t) : t.layout = s.layout.after o pieces := by
  induction moves with
  | refl => rfl
  | head move _ ih => rw [ih, move.layout_eq, Layout.after_cons]

/-- Moves over a list of pieces pass its first part and then its second. -/
theorem split {first second : List Piece} (moves : Moves o s (first ++ second) u) :
    ∃ t, Moves o s first t ∧ Moves o t second u := by
  induction first generalizing s with
  | nil => exact ⟨s, .refl s, moves⟩
  | cons p first ih =>
    cases moves with
    | head move others =>
      obtain ⟨t, before, behind⟩ := ih others
      exact ⟨t, .head move before, behind⟩

end Moves

namespace Cursor

theorem atDirective_followMarkers {c d : Cursor} (h : c.followMarkers = .ok d) :
    d.atDirective = false := by
  fun_induction followMarkers c with
  | case1 => simp at h
  | case2 c stands marker parsed ih => exact ih h
  | case3 c clear =>
    obtain rfl := by simpa using h
    simpa using clear

theorem stuck_followMarkers {c d : Cursor} (h : c.followMarkers = .error d) :
    d.atDirective ∧ Linemarker.parse? d.line = none := by
  fun_induction followMarkers c with
  | case1 c stands unparsed =>
    obtain rfl := by simpa using h
    exact ⟨stands, unparsed⟩
  | case2 c stands marker parsed ih => exact ih h
  | case3 => simp at h

/-- Following linemarkers passes them one by one, up to where it ends or is stuck. -/
theorem moves_followMarkers {o : Options} {c d : Cursor} (l : Layout)
    (h : c.followMarkers = .ok d ∨ c.followMarkers = .error d) :
    Moves o ⟨c, l⟩ c.markerPieces ⟨d, l⟩ := by
  fun_induction followMarkers c with
  | case1 c stands unparsed =>
    obtain rfl : c = d := by simpa using h
    rw [markerPieces, dif_pos stands]
    simp only [unparsed]
    exact .refl _
  | case2 c stands marker parsed ih =>
    rw [markerPieces, dif_pos stands]
    simp only [parsed]
    exact .head (.marker stands parsed) (ih h)
  | case3 c clear =>
    obtain rfl : c = d := by simpa using h
    rw [markerPieces, dif_neg clear]
    exact .refl _

theorem tokens_markerPieces (o : Options) (c : Cursor) (l : Layout) :
    l.tokens o c.markerPieces = [] := by
  fun_induction markerPieces c with
  | case1 => rfl
  | case2 c stands marker parsed ih => exact ih
  | case3 => rfl

end Cursor

namespace Scanner

/-- How a scan that came to this scanner ends: at the end of the text or at a fault. -/
inductive Ends (o : Options) (s : Scanner) : Step → Prop where
  | finished (done : s.cursor.rest = []) : Ends o s (s.finish o)
  | directive (stands : s.cursor.atDirective) (unparsed : Linemarker.parse? s.cursor.line = none) :
      Ends o s (s.fail o (.directive s.cursor.line))
  | unread {c : Char} {rest : List Char} {fault : Fault} (here : s.cursor.rest = c :: rest)
      (unread : Lexeme.read c rest = .error fault) : Ends o s (s.fail o fault)

/-- What a step does, told by its moves. -/
inductive StepSpec (o : Options) (s : Scanner) : Step → Prop where
  | placed {next : Scanner} (moves : Moves o s (s.stepPieces o) next) :
      StepSpec o s (.placed (s.layout.tokens o (s.stepPieces o)) next)
  | ended {stop last : Scanner} {tokens : List Token} {ending : Ending}
      (moves : Moves o s (s.stepPieces o) stop) (silent : s.layout.tokens o (s.stepPieces o) = [])
      (ends : stop.Ends o (.ended tokens ending last)) : StepSpec o s (.ended tokens ending last)

/-- Reading a lexeme moves over it, or ends the scan. -/
theorem readLexeme_spec (o : Options) (s : Scanner) :
    match s.readLexeme o with
    | .placed tokens next =>
      Moves o s (s.lexemePieces o) next ∧ tokens = s.layout.tokens o (s.lexemePieces o)
    | .ended tokens ending last =>
      s.lexemePieces o = [] ∧ s.Ends o (.ended tokens ending last) := by
  obtain ⟨⟨text, point⟩, l⟩ := s
  cases text with
  | nil => exact ⟨rfl, .finished rfl⟩
  | cons c rest =>
    cases read : Lexeme.read c rest with
    | error fault =>
      simp only [readLexeme, lexemePieces, read]
      exact ⟨trivial, .unread rfl read⟩
    | ok r =>
      obtain ⟨whole, spelled⟩ := Lexeme.read_eq_ok_iff.1 read
      simp only [readLexeme, lexemePieces, read, place, Cursor.pass]
      constructor
      · rw [← whole]
        exact .single (.lexeme spelled rfl)
      · rw [Layout.tokens_singleton]
        rfl

theorem step_spec (o : Options) (s : Scanner) : StepSpec o s (s.step o) := by
  obtain ⟨c, l⟩ := s
  unfold step
  cases followed : c.followMarkers with
  | error stuck =>
    have passed : Moves o ⟨c, l⟩ (stepPieces o ⟨c, l⟩) ⟨stuck, l⟩ := by
      simpa [stepPieces, followed] using Cursor.moves_followMarkers l (.inr followed)
    have silent : l.tokens o (stepPieces o ⟨c, l⟩) = [] := by
      simp [stepPieces, followed, Cursor.tokens_markerPieces]
    obtain ⟨stands, unparsed⟩ := Cursor.stuck_followMarkers followed
    exact .ended passed silent (.directive stands unparsed)
  | ok d =>
    have pieces : stepPieces o ⟨c, l⟩ =
        (c.markerPieces ++ [.blanks (d.rest.takeWhile (isPassed l.inIndentation))]) ++
          (passBlanks o ⟨d, l⟩).lexemePieces o := by
      simp [stepPieces, followed]
    have blank := Move.blanks (o := o) (s := ⟨d, l⟩) (Cursor.atDirective_followMarkers followed)
    have passed := (Cursor.moves_followMarkers l (.inl followed)).append (.single blank)
    have tokens : l.tokens o (stepPieces o ⟨c, l⟩) =
        (passBlanks o ⟨d, l⟩).layout.tokens o ((passBlanks o ⟨d, l⟩).lexemePieces o) := by
      rw [pieces, Layout.tokens_append, ← passed.layout_eq, Layout.tokens_append,
        Cursor.tokens_markerPieces]
      rfl
    change StepSpec o ⟨c, l⟩ ((passBlanks o ⟨d, l⟩).readLexeme o)
    have behind := readLexeme_spec o (passBlanks o ⟨d, l⟩)
    cases read : (passBlanks o ⟨d, l⟩).readLexeme o with
    | placed handed next =>
      rw [read] at behind
      obtain ⟨moves, rfl⟩ := behind
      rw [← tokens]
      exact .placed (pieces ▸ passed.append moves)
    | ended handed ending last =>
      rw [read] at behind
      obtain ⟨none_left, ends⟩ := behind
      rw [none_left, List.append_nil] at pieces
      rw [none_left] at tokens
      exact .ended (pieces ▸ passed) tokens ends

/-- A run is its moves and then an end. -/
theorem run_spec (o : Options) (s : Scanner) :
    ∃ stop tokens, Moves o s (s.pieces o) stop ∧
      (s.run o).tokens = s.layout.tokens o (s.pieces o) ++ tokens ∧
      stop.Ends o (.ended tokens (s.run o).ending (s.run o).last) := by
  fun_induction pieces o s with
  | case1 s handed next placed ih =>
    obtain ⟨stop, tokens, moves, handed_out, ends⟩ := ih
    have spec := step_spec o s
    rw [placed] at spec
    cases spec with
    | placed first =>
      rw [run_eq, placed]
      refine ⟨stop, tokens, first.append moves, ?_, ends⟩
      rw [Layout.tokens_append, ← first.layout_eq, List.append_assoc, ← handed_out]
  | case2 s handed ending last ended =>
    have spec := step_spec o s
    rw [ended] at spec
    cases spec with
    | ended moves silent ends =>
      rw [run_eq, ended]
      exact ⟨_, handed, moves, by simp [silent], ends⟩

end Scanner

theorem Scanner.Ends.finished_inv {stop last : Scanner} {tokens : List Token}
    (ends : stop.Ends o (.ended tokens .finished last)) :
    stop.cursor.rest = [] ∧ tokens = (stop.layout.finish o).1 ∧
      last = ⟨stop.cursor, (stop.layout.finish o).2⟩ := by
  generalize same : Step.ended tokens .finished last = step at ends
  cases ends with
  | finished done =>
    cases same
    exact ⟨done, rfl, rfl⟩
  | directive stands unparsed => simp [fail] at same
  | unread here unread => simp [fail] at same

/-- An end hands out what the layout still owes, or nothing at a fault. -/
theorem Scanner.Ends.layout_eq {stop last : Scanner} {tokens : List Token} {ending : Ending}
    (ends : stop.Ends o (.ended tokens ending last)) :
    (tokens, last.layout) = stop.layout.finish o ∨ (tokens, last.layout) = ([], stop.layout) := by
  generalize same : Step.ended tokens ending last = step at ends
  cases ends with
  | finished done =>
    cases same
    exact .inl rfl
  | directive stands unparsed =>
    cases same
    exact .inr rfl
  | unread here unread =>
    cases same
    exact .inr rfl

/-- An end leaves the cursor where the scan came to, or at the end of the text. -/
theorem Scanner.Ends.cursor_eq {stop last : Scanner} {tokens : List Token} {ending : Ending}
    (ends : stop.Ends o (.ended tokens ending last)) :
    last.cursor = stop.cursor ∨
      last.cursor = stop.cursor.pass o.effectiveTabWidth stop.cursor.rest [] := by
  have stuck (fault : Fault) (same : Step.ended tokens ending last = stop.fail o fault) :
      last.cursor = stop.cursor ∨
        last.cursor = stop.cursor.pass o.effectiveTabWidth stop.cursor.rest [] := by
    cases same
    by_cases whole : fault.readsToEnd
    · exact .inr (if_pos whole)
    · exact .inl (if_neg whole)
  generalize same : Step.ended tokens ending last = step at ends
  cases ends with
  | finished done =>
    cases same
    exact .inl rfl
  | directive stands unparsed => exact stuck _ same
  | unread here unread => exact stuck _ same

/-- Lexing a unit is running over it. -/
theorem lexUnit_eq (o : Options) (unit text : String) (told : Diagnostics) :
    lexUnit o unit text told =
      match ((Scanner.start unit text.toList).run o).ending with
      | .finished => (.ok ((Scanner.start unit text.toList).run o).tokens, told)
      | .failed e => (.error e, told.report e.text e.position) := by
  unfold lexUnit Lexer.drain Lexer.start
  cases ending : ((Scanner.start unit text.toList).run o).ending with
  | finished => simp [ending, Ending.error?, Ending.tell]
  | failed e => simp [ending, Ending.error?, Ending.tell]

/-- A unit that does not lex is one whose run fails. -/
theorem ending_of_lexUnit {unit text : String} {told : Diagnostics} {e : LexError}
    (h : (lexUnit o unit text told).1 = .error e) :
    ((Scanner.start unit text.toList).run o).ending = .failed e := by
  rw [lexUnit_eq] at h
  cases ending : ((Scanner.start unit text.toList).run o).ending with
  | finished => simp [ending] at h
  | failed e' => simpa [ending] using h

/-- A unit without errors is passed to its end. -/
theorem moves_of_lexUnit {unit text : String} {told : Diagnostics} {tokens : List Token}
    (h : (lexUnit o unit text told).1 = .ok tokens) :
    ∃ stop, Moves o (.start unit text.toList) (unitPieces o unit text) stop ∧
      stop.cursor.rest = [] ∧
      tokens = Layout.start.tokens o (unitPieces o unit text) ++ (stop.layout.finish o).1 := by
  obtain ⟨stop, last_tokens, moves, handed, ends⟩ :=
    Scanner.run_spec o (Scanner.start unit text.toList)
  rw [lexUnit_eq] at h
  cases ending : ((Scanner.start unit text.toList).run o).ending with
  | failed e => simp [ending] at h
  | finished =>
    rw [ending] at ends h
    obtain ⟨done, rfl, -⟩ := ends.finished_inv
    obtain rfl : _ = tokens := by simpa using h
    exact ⟨stop, moves, done, handed⟩

/-- The pieces of a unit without errors make up its text. -/
theorem text_unitPieces {unit text : String} {told : Diagnostics} {tokens : List Token}
    (h : (lexUnit o unit text told).1 = .ok tokens) :
    Piece.text (unitPieces o unit text) = text.toList := by
  obtain ⟨stop, moves, done, -⟩ := moves_of_lexUnit h
  have whole := moves.rest_eq
  rw [done, List.append_nil] at whole
  exact whole.symm

end DreamLexer
