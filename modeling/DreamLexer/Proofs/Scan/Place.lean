import DreamLexer.Proofs.Protocol
import DreamLexer.Proofs.Scan.Alike
import DreamLexer.Proofs.Scan.Seam
import Mathlib.Data.List.Induction

/-!
# Places in a text

The position of a character depends on its offset and on the last linemarker before it, and on
nothing else: it is where the text behind that marker's line leads from the place the marker names.
`placeAt` is that function, `Moves.point_eq` says that a scan keeps to it, and `position_law` that
lexers and the spans of tokens do.
-/

namespace DreamLexer

/-- A linemarker that a scan has passed, and the offset at which its line ends. -/
structure Mark where
  marker : Linemarker
  stop : Nat
deriving DecidableEq

namespace Mark

/-- The place that the marker names. -/
def place (m : Mark) : Position := ⟨m.marker.unit, m.marker.line, 1⟩

/-- A line of the text, with its line feed unless the text ends with it, reads as the marker. -/
structure InText (text : List Char) (m : Mark) : Prop where
  line : ∃ before line ending behind, text = before ++ (line ++ ending) ++ behind ∧
    (before ++ (line ++ ending)).length = m.stop ∧
    (before = [] ∨ before.getLast? = some '\n') ∧ '\n' ∉ line ∧
    (ending = ['\n'] ∨ ending = [] ∧ behind = []) ∧ Linemarker.parse? line = some m.marker

end Mark

/-- The position at an offset of a text that starts at `origin`, of which these linemarkers were
passed. -/
def placeAt (tabWidth : UInt32) (origin : Position) (text : List Char) (marks : List Mark)
    (offset : Nat) : Position :=
  match (marks.filter (·.stop ≤ offset)).getLast? with
  | none => origin.advanceOver tabWidth (text.take offset)
  | some m => m.place.advanceOver tabWidth ((text.take offset).drop m.stop)

section

variable {tabWidth : UInt32} {origin : Position} {text : List Char} {marks : List Mark}

theorem placeAt_length (inside : ∀ m ∈ marks, m.stop ≤ text.length) :
    placeAt tabWidth origin text marks text.length =
      match marks.getLast? with
      | none => origin.advanceOver tabWidth text
      | some m => m.place.advanceOver tabWidth (text.drop m.stop) := by
  have all : marks.filter (·.stop ≤ text.length) = marks :=
    List.filter_eq_self.2 (by simpa using inside)
  rw [placeAt, all, List.take_length]

/-- Behind the last linemarker the places go on over the text. -/
theorem placeAt_append (inside : ∀ m ∈ marks, m.stop ≤ text.length) (more : List Char) :
    placeAt tabWidth origin (text ++ more) marks (text ++ more).length =
      (placeAt tabWidth origin text marks text.length).advanceOver tabWidth more := by
  have inside' : ∀ m ∈ marks, m.stop ≤ (text ++ more).length := by
    intro m member
    exact Nat.le_trans (inside m member) (List.prefix_append text more).length_le
  rw [placeAt_length inside, placeAt_length inside']
  cases found : marks.getLast? with
  | none => exact Position.advanceOver_append ..
  | some m =>
    dsimp only
    rw [List.drop_append_of_le_length (inside m (List.mem_of_getLast? found)),
      Position.advanceOver_append]

end

namespace Piece

/-- The linemarkers among pieces that start at an offset. -/
def marks (offset : Nat) : List Piece → List Mark
  | [] => []
  | .marker raw m :: pieces => ⟨m, offset + raw.length⟩ :: marks (offset + raw.length) pieces
  | p :: pieces => marks (offset + p.raw.length) pieces

/-- The linemarkers of a piece alone. -/
theorem marks_cons (offset : Nat) (p : Piece) (pieces : List Piece) :
    marks offset (p :: pieces) = marks offset [p] ++ marks (offset + p.raw.length) pieces := by
  cases p <;> rfl

theorem marks_append (offset : Nat) (first second : List Piece) :
    marks offset (first ++ second) =
      marks offset first ++ marks (offset + (text first).length) second := by
  induction first generalizing offset with
  | nil => rfl
  | cons p first ih =>
    rw [List.cons_append, marks_cons, ih, marks_cons offset p first, text_cons, List.length_append,
      List.append_assoc, Nat.add_assoc]

theorem mem_marks_singleton {offset : Nat} {p : Piece} {m : Mark} (h : m ∈ marks offset [p]) :
    m.stop = offset + p.raw.length ∧ ∃ raw, p = .marker raw m.marker := by
  cases p with
  | marker raw marker =>
    obtain rfl : m = ⟨marker, offset + raw.length⟩ := by simpa [marks] using h
    exact ⟨rfl, raw, rfl⟩
  | blanks raw => simp [marks] at h
  | lexeme raw lexeme span => simp [marks] at h

theorem marks_of_token? {o : Options} {offset : Nat} {p : Piece} {t : Token} (h : p.token? o = some t) :
    marks offset [p] = [] := by
  cases p with
  | marker raw m => simp [token?] at h
  | blanks raw => rfl
  | lexeme raw lexeme span => rfl

/-- A linemarker among pieces ends with one of them. -/
theorem mem_marks {offset : Nat} {pieces : List Piece} {m : Mark} (h : m ∈ marks offset pieces) :
    ∃ read raw others, pieces = read ++ .marker raw m.marker :: others ∧
      m.stop = offset + (text read).length + raw.length := by
  induction pieces generalizing offset with
  | nil => simp [marks] at h
  | cons p pieces ih =>
    rw [marks_cons] at h
    rcases List.mem_append.1 h with here | later
    · obtain ⟨stop, raw, rfl⟩ := mem_marks_singleton here
      exact ⟨[], raw, pieces, rfl, by simpa [Piece.raw] using stop⟩
    · obtain ⟨read, raw, others, rfl, stop⟩ := ih later
      refine ⟨p :: read, raw, others, rfl, ?_⟩
      rw [stop, text_cons, List.length_append]
      omega

theorem stop_le_of_mem_marks {pieces : List Piece} {m : Mark} (h : m ∈ marks 0 pieces) :
    m.stop ≤ (text pieces).length := by
  obtain ⟨read, raw, others, rfl, stop⟩ := mem_marks h
  rw [stop, text_append, text_cons]
  simp only [Piece.raw, List.length_append]
  omega

end Piece

variable {o : Options} {s t u v : Scanner} {p : Piece} {read others : List Piece}

/-- A linemarker takes at least its sign. -/
theorem Move.marker_ne_nil {raw : List Char} {m : Linemarker} (move : Move o s (.marker raw m) t) :
    raw ≠ [] := by
  cases move with
  | marker stands parsed =>
    obtain ⟨line, sign⟩ := Cursor.wholeLine_of_atDirective stands
    simp [sign]

namespace Moves

/-- A linemarker that is passed later ends later. -/
theorem lt_stop_of_mem_marks (moves : Moves o s others t) {offset : Nat} {m : Mark}
    (h : m ∈ Piece.marks offset others) : offset < m.stop := by
  obtain ⟨read, raw, behind, rfl, stop⟩ := Piece.mem_marks h
  obtain ⟨u, -, later⟩ := moves.split
  cases later with
  | head move _ =>
    have := List.length_pos_iff.2 move.marker_ne_nil
    omega

/-- Of all linemarkers those that end up to an offset are those that were passed up to there. -/
theorem filter_marks (moves : Moves o s others t) :
    (Piece.marks 0 (read ++ others)).filter (·.stop ≤ (Piece.text read).length) =
      Piece.marks 0 read := by
  rw [Piece.marks_append, List.filter_append, Nat.zero_add]
  have before : (Piece.marks 0 read).filter (·.stop ≤ (Piece.text read).length) =
      Piece.marks 0 read := by
    rw [List.filter_eq_self]
    intro m member
    simpa using Piece.stop_le_of_mem_marks member
  have behind : (Piece.marks (Piece.text read).length others).filter
      (·.stop ≤ (Piece.text read).length) = [] := by
    rw [List.filter_eq_nil_iff]
    intro m member
    simpa using moves.lt_stop_of_mem_marks member
  rw [before, behind, List.append_nil]

/-- A scan keeps to the places of the linemarkers that it has passed. -/
theorem point_of_marks (moves : Moves o s read t) :
    t.cursor.point = placeAt o.effectiveTabWidth s.cursor.point (Piece.text read)
      (Piece.marks 0 read) (Piece.text read).length := by
  -- From the end: the last piece goes on from the place reached before it, or names a new one.
  induction read using List.reverseRecOn generalizing t with
  | nil =>
    cases moves
    rfl
  | append_singleton read p ih =>
    obtain ⟨u, before, last⟩ := moves.split
    have text : Piece.text (read ++ [p]) = Piece.text read ++ p.raw := by simp
    have marks : Piece.marks 0 (read ++ [p]) =
        Piece.marks 0 read ++ Piece.marks (Piece.text read).length [p] := by
      rw [Piece.marks_append, Nat.zero_add]
    have passes (none_passed : Piece.marks (Piece.text read).length [p] = [])
        (point : t.cursor.point = u.cursor.point.advanceOver o.effectiveTabWidth p.raw) :
        t.cursor.point = placeAt o.effectiveTabWidth s.cursor.point (Piece.text (read ++ [p]))
          (Piece.marks 0 (read ++ [p])) (Piece.text (read ++ [p])).length := by
      rw [text, marks, none_passed, List.append_nil, point, ih before,
        placeAt_append fun m => Piece.stop_le_of_mem_marks]
    cases last with
    | head move nothing =>
      cases nothing
      cases move with
      | @marker c l m stands parsed =>
        have all : (Piece.text (read ++ [.marker c.wholeLine m])).drop
            ((Piece.text read).length + c.wholeLine.length) = [] := by
          apply List.drop_of_length_le
          simp [Piece.raw]
        rw [placeAt_length fun m => Piece.stop_le_of_mem_marks, marks, Piece.marks, Piece.marks,
          List.getLast?_concat]
        dsimp only
        rw [all]
        rfl
      | blanks clear => exact passes rfl rfl
      | lexeme spelled covers =>
        subst covers
        exact passes rfl rfl

/-- A scan keeps to the places of its linemarkers, those that it passes later included. -/
theorem point_eq (first : Moves o s read t) (second : Moves o u others v) :
    t.cursor.point = placeAt o.effectiveTabWidth s.cursor.point s.cursor.rest
      (Piece.marks 0 (read ++ others)) (Piece.text read).length := by
  rw [first.point_of_marks, placeAt_length fun m => Piece.stop_le_of_mem_marks, placeAt,
    second.filter_marks, first.rest_eq, List.take_left]

/-- Behind its last linemarker the places go on to the end of the text. -/
theorem advanceOver_rest (moves : Moves o s read t) :
    t.cursor.point.advanceOver o.effectiveTabWidth t.cursor.rest =
      placeAt o.effectiveTabWidth s.cursor.point s.cursor.rest (Piece.marks 0 read)
        s.cursor.rest.length := by
  rw [moves.rest_eq, placeAt_append fun m => Piece.stop_le_of_mem_marks, moves.point_of_marks]

end Moves

/-- The linemarkers that the scan of a unit passes. -/
def unitMarks (o : Options) (unit text : String) : List Mark := Piece.marks 0 (unitPieces o unit text)

/-- The position at an offset of a unit's text. -/
def unitPlace (o : Options) (unit text : String) (offset : Nat) : Position :=
  placeAt o.effectiveTabWidth (.startOf unit) text.toList (unitMarks o unit text) offset

section

variable {unit text : String}

/-- The pieces of a unit, up to where its scan ends. -/
theorem moves_unitPieces (o : Options) (unit text : String) :
    ∃ stop, Moves o (.start unit text.toList) (unitPieces o unit text) stop := by
  obtain ⟨stop, -, moves, -⟩ := Scanner.run_spec o (Scanner.start unit text.toList)
  exact ⟨stop, moves⟩

/-- Between its pieces the scan of a unit stands at the place of its offset. -/
theorem point_eq_unitPlace (pieces : unitPieces o unit text = read ++ others)
    (moves : Moves o (.start unit text.toList) read t) :
    t.cursor.point = unitPlace o unit text (Piece.text read).length := by
  obtain ⟨stop, whole⟩ := moves_unitPieces o unit text
  rw [pieces] at whole
  obtain ⟨u, -, behind⟩ := whole.split
  rw [unitPlace, unitMarks, pieces]
  exact moves.point_eq behind

/-- The linemarkers of a unit are lines of its text. -/
theorem inText_of_mem_unitMarks {m : Mark} (h : m ∈ unitMarks o unit text) :
    m.InText text.toList := by
  obtain ⟨read, raw, others, pieces, stop⟩ := Piece.mem_marks h
  obtain ⟨last, whole⟩ := moves_unitPieces o unit text
  rw [pieces] at whole
  obtain ⟨t, before, behind⟩ := whole.split
  have steady := before.inStep (Scanner.inStep_start unit text.toList)
  have text_eq : text.toList = Piece.text read ++ t.cursor.rest := before.rest_eq
  cases behind with
  | head move later =>
    generalize marker : m.marker = m' at move
    cases move with
    | @marker c l m' stands parsed =>
      obtain ⟨first, rest, here⟩ := Cursor.atDirective_iff.1 stands
      have starts := (steady.line_start first).resolve_left (by simp [here])
      obtain ⟨ending, line, ends⟩ : ∃ ending, c.wholeLine = c.line ++ ending ∧
          (ending = ['\n'] ∨ ending = [] ∧ c.linesBehind = []) := by
        rcases c.wholeLine_cases with newline | ⟨last, nothing⟩
        · exact ⟨['\n'], newline, .inl rfl⟩
        · exact ⟨[], by simpa using last, .inr ⟨rfl, nothing⟩⟩
      refine ⟨Piece.text read, c.line, ending, c.linesBehind, ?_, ?_, starts,
        c.newline_not_mem_line, ends, marker ▸ parsed⟩
      · rw [text_eq, List.append_assoc, ← line, c.wholeLine_append]
      · rw [stop, ← line, List.length_append, Nat.zero_add]

end

namespace Lexer

/-- The lexer has passed pieces from the scanner on, and unless it failed, it stands behind them. -/
structure Reads (o : Options) (s : Scanner) (read : List Piece) (l : Lexer) : Prop where
  options : l.options = o
  running : l.ending = none → Moves o s read l.scanner ∧ s.pieces o = read ++ l.scanner.pieces o
  finished : l.ending = some .finished →
    s.pieces o = read ∧ ∃ stop, Moves o s read stop ∧ stop.cursor = l.scanner.cursor

namespace Reads

variable {l : Lexer}

theorem start (o : Options) (unit text : String) (told : Diagnostics) :
    (Lexer.start o unit text told).Reads o (.start unit text.toList) [] where
  options := rfl
  running _ := ⟨.refl _, rfl⟩
  finished ended := by simp [Lexer.start] at ended

/-- Scanning for tokens passes more pieces. -/
theorem refill (h : l.Reads o s read) : ∃ more, l.refill.Reads o s more := by
  fun_induction Lexer.refill l generalizing read with
  | case1 l needed tokens next placed ih =>
    obtain ⟨rfl, running, -⟩ := h
    simp only [Bool.and_eq_true, Option.isNone_iff_eq_none] at needed
    obtain ⟨moves, pieces⟩ := running needed.2
    have spec := Scanner.step_spec l.options l.scanner
    rw [placed] at spec
    cases spec with
    | placed step =>
      have all := Scanner.pieces_of_placed placed
      rw [all, ← List.append_assoc] at pieces
      exact ih ⟨rfl, fun _ => ⟨moves.append step, pieces⟩, fun ended => by simp [needed.2] at ended⟩
  | case2 l needed tokens ending last ended =>
    obtain ⟨rfl, running, -⟩ := h
    simp only [Bool.and_eq_true, Option.isNone_iff_eq_none] at needed
    obtain ⟨moves, pieces⟩ := running needed.2
    have spec := Scanner.step_spec l.options l.scanner
    rw [ended] at spec
    cases spec with
    | @ended stop last tokens ending step silent ends =>
      rw [Scanner.pieces_of_ended ended] at pieces
      refine ⟨read ++ l.scanner.stepPieces l.options, rfl, by simp, ?_⟩
      rintro ⟨⟩
      obtain ⟨-, -, rfl⟩ := ends.finished_inv
      exact ⟨pieces, stop, moves.append step, rfl⟩
  | case3 l full => exact ⟨read, h⟩

/-- A request passes more pieces, or none. -/
theorem ask (h : l.Reads o s read) (request : Request) :
    ∃ more, (l.ask request).2.Reads o s more := by
  by_cases failed : ∃ e, l.ending = some (.failed e)
  · obtain ⟨e, failed⟩ := failed
    rw [(ask_of_failed failed).2]
    exact ⟨read, h⟩
  · obtain ⟨more, options, running, finished⟩ := h.refill
    have same : l.ask request = l.ask .nextToken := by
      cases request with
      | nextToken => rfl
      | next => exact ask_next (not_exists.1 failed)
    rw [same, Lexer.ask, nextToken_of_not_failed (not_exists.1 failed)]
    refine ⟨more, ?_⟩
    cases l.refill.queue with
    | cons token queue => exact ⟨options, running, finished⟩
    | nil =>
      rcases l.refill.ending with _ | _ | e
      · exact ⟨options, running, finished⟩
      · exact ⟨options, running, finished⟩
      · exact ⟨options, running, finished⟩

theorem askAll (h : l.Reads o s read) (requests : List Request) :
    ∃ more, (l.askAll requests).2.Reads o s more := by
  induction requests generalizing l read with
  | nil => exact ⟨read, h⟩
  | cons request requests ih =>
    obtain ⟨more, asked⟩ := h.ask request
    exact ih asked

/-- A lexer that has not failed stands behind the first pieces of the run. -/
theorem moves (h : l.Reads o s read) (not_failed : ∀ e, l.ending ≠ some (.failed e)) :
    ∃ others stop, s.pieces o = read ++ others ∧ Moves o s read stop ∧
      stop.cursor = l.scanner.cursor := by
  rcases ended : l.ending with _ | _ | e
  · obtain ⟨moves, pieces⟩ := h.running ended
    exact ⟨_, _, pieces, moves, rfl⟩
  · obtain ⟨pieces, stop, moves, same⟩ := h.finished ended
    exact ⟨[], stop, by simpa using pieces, moves, same⟩
  · exact absurd ended (not_failed e)

end Reads

end Lexer

/-- Every token with a span is the token of a piece. -/
theorem piece_of_token {unit text : String} {before behind : List Token} {token : Token}
    (stands : ((Scanner.start unit text.toList).run o).tokens = before ++ token :: behind)
    (spanned : token.span.isSome) :
    ∃ read p others, unitPieces o unit text = read ++ p :: others ∧ p.token? o = some token ∧
      before.filter (·.span.isSome) = read.filterMap (·.token? o) := by
  obtain ⟨stop, last, -, tokens, ends⟩ := Scanner.run_spec o (Scanner.start unit text.toList)
  have absent : token ∉ last := by
    intro member
    rcases ends.layout_eq with finished | failed
    · obtain rfl : last = (stop.layout.finish o).1 := congrArg Prod.fst finished
      rw [Layout.mem_finish member] at spanned
      simp [Token.indentEnd] at spanned
    · obtain rfl : last = [] := congrArg Prod.fst failed
      simp at member
  rw [tokens] at stands
  obtain ⟨more, handed⟩ := within_of_not_mem absent stands
  obtain ⟨read, p, others, pieces, own, rfl⟩ := Layout.tokens_split spanned handed
  refine ⟨read, p, others, pieces, own, ?_⟩
  rw [List.filter_append, Layout.filter_span_tokens, Layout.filter_span_settle, List.append_nil]

/-- A piece with a token is a lexeme, and its span leads over it. -/
theorem Move.span_of_token? (move : Move o s p t) {token : Token}
    (own : p.token? o = some token) : token.span = some ⟨s.cursor.point, t.cursor.point⟩ := by
  cases move with
  | marker stands parsed => simp [Piece.token?] at own
  | blanks clear => simp [Piece.token?] at own
  | lexeme spelled covers =>
    subst covers
    exact Lexeme.span_of_token? own

section

variable {unit text : String} {token : Token}

/-- No linemarker's line ends inside the piece of a token. -/
theorem not_inside_of_token? (pieces : unitPieces o unit text = read ++ p :: others)
    (own : p.token? o = some token) {m : Mark} (h : m ∈ unitMarks o unit text) :
    ¬ ((Piece.text read).length < m.stop ∧ m.stop ≤ (Piece.text read ++ p.raw).length) := by
  rintro ⟨behind_start, before_end⟩
  obtain ⟨last, whole⟩ := moves_unitPieces o unit text
  rw [pieces] at whole
  obtain ⟨t, -, later⟩ := whole.split
  rw [unitMarks, pieces, Piece.marks_append, Piece.marks_cons, Piece.marks_of_token? own,
    List.nil_append, Nat.zero_add] at h
  rw [List.length_append] at before_end
  cases later with
  | head _ rest =>
    rcases List.mem_append.1 h with passed | ahead
    · exact absurd (Piece.stop_le_of_mem_marks passed) (Nat.not_le_of_lt behind_start)
    · exact absurd (rest.lt_stop_of_mem_marks ahead) (Nat.not_lt_of_le before_end)

/-- The span of a token leads from the place where its piece starts to the one where it ends. -/
theorem span_of_piece (pieces : unitPieces o unit text = read ++ p :: others)
    (own : p.token? o = some token) :
    (∃ rest, text.toList = Piece.text read ++ p.raw ++ rest) ∧
      token.span = some ⟨unitPlace o unit text (Piece.text read).length,
        unitPlace o unit text (Piece.text read ++ p.raw).length⟩ := by
  obtain ⟨last, whole⟩ := moves_unitPieces o unit text
  rw [pieces] at whole
  obtain ⟨t, first, later⟩ := whole.split
  cases later with
  | @head _ u _ _ _ move rest =>
    have through : Moves o (.start unit text.toList) (read ++ [p]) u := first.append (.single move)
    have pieces' : unitPieces o unit text = (read ++ [p]) ++ others := by simpa using pieces
    have passed : Piece.text (read ++ [p]) = Piece.text read ++ p.raw := by simp
    rw [← passed]
    refine ⟨⟨u.cursor.rest, through.rest_eq⟩, ?_⟩
    rw [move.span_of_token? own, point_eq_unitPlace pieces first,
      point_eq_unitPlace pieces' through]

end

/-- Positions are a function of the offset. The linemarkers that the scan of a unit passes are lines
of its text. While tokens are pulled, in whatever way, the lexer has passed the first pieces of the
text and stands at the place of its offset, which the last linemarker it has passed decides. Every
token with a span was read from a piece of the text, inside which no linemarker's line ends, and its
span leads from the place where the piece starts to the place where it ends. -/
theorem position_law (o : Options) (unit text : String) (told : Diagnostics) :
    (∀ m ∈ unitMarks o unit text, m.InText text.toList) ∧
    (∀ requests,
      let l := ((Lexer.start o unit text told).askAll requests).2
      (∀ e, l.ending ≠ some (.failed e)) →
        ∃ read others stop, unitPieces o unit text = read ++ others ∧
          Moves o (.start unit text.toList) read stop ∧ stop.cursor = l.scanner.cursor ∧
          text.toList = Piece.text read ++ l.scanner.cursor.rest ∧
          (unitMarks o unit text).filter (·.stop ≤ (Piece.text read).length) =
            Piece.marks 0 read ∧
          l.position = unitPlace o unit text (Piece.text read).length) ∧
    ∀ before token behind,
      ((Scanner.start unit text.toList).run o).tokens = before ++ token :: behind →
      token.span.isSome →
        ∃ read p others, unitPieces o unit text = read ++ p :: others ∧
          p.token? o = some token ∧
          before.filter (·.span.isSome) = read.filterMap (·.token? o) ∧
          (∃ rest, text.toList = Piece.text read ++ p.raw ++ rest) ∧
          (∀ m ∈ unitMarks o unit text, ¬ ((Piece.text read).length < m.stop ∧
            m.stop ≤ (Piece.text read ++ p.raw).length)) ∧
          token.span = some ⟨unitPlace o unit text (Piece.text read).length,
            unitPlace o unit text (Piece.text read ++ p.raw).length⟩ := by
  refine ⟨fun m => inText_of_mem_unitMarks, ?_, ?_⟩
  · intro requests l not_failed
    obtain ⟨read, reads⟩ := (Lexer.Reads.start o unit text told).askAll requests
    obtain ⟨others, stop, pieces, moves, same⟩ := reads.moves not_failed
    obtain ⟨last, whole⟩ := moves_unitPieces o unit text
    rw [unitPieces, pieces] at whole
    obtain ⟨t, -, behind⟩ := whole.split
    refine ⟨read, others, stop, pieces, moves, same, ?_, ?_, ?_⟩
    · rw [← same]
      exact moves.rest_eq
    · rw [unitMarks, unitPieces, pieces]
      exact behind.filter_marks
    · rw [Lexer.position, ← same]
      exact point_eq_unitPlace pieces moves
  · intro before token behind stands spanned
    obtain ⟨read, p, others, pieces, own, order⟩ := piece_of_token stands spanned
    obtain ⟨inside, span⟩ := span_of_piece pieces own
    exact ⟨read, p, others, pieces, own, order, inside, fun m => not_inside_of_token? pieces own,
      span⟩

/-- A unit whose first line names the place of its second one, and the word that stands there. -/
theorem position_law_of_marked_text :
    (∃ read others, unitPieces .standard "a.dm" "# 7 \x22b.dm\x22\nab c" = read ++ others ∧
      (⟨"b.dm", 7, 3⟩ : Position) =
        unitPlace .standard "a.dm" "# 7 \x22b.dm\x22\nab c" (Piece.text read).length) ∧
    ∃ read p others,
      unitPieces .standard "a.dm" "# 7 \x22b.dm\x22\nab c" = read ++ p :: others ∧
      (∀ m ∈ unitMarks .standard "a.dm" "# 7 \x22b.dm\x22\nab c",
        ¬ ((Piece.text read).length < m.stop ∧ m.stop ≤ (Piece.text read ++ p.raw).length)) ∧
      some (⟨⟨"b.dm", 7, 1⟩, ⟨"b.dm", 7, 3⟩⟩ : Span) =
        some ⟨unitPlace .standard "a.dm" "# 7 \x22b.dm\x22\nab c" (Piece.text read).length,
          unitPlace .standard "a.dm" "# 7 \x22b.dm\x22\nab c"
            (Piece.text read ++ p.raw).length⟩ := by
  have running :
      ((Lexer.start .standard "a.dm" "# 7 \x22b.dm\x22\nab c" .empty).askAll [.next]).2.ending =
        none := by decide +kernel
  have place :
      ((Lexer.start .standard "a.dm" "# 7 \x22b.dm\x22\nab c" .empty).askAll
        [.next]).2.position = ⟨"b.dm", 7, 3⟩ := by decide +kernel
  have scanned : ((Scanner.start "a.dm" "# 7 \x22b.dm\x22\nab c".toList).run .standard).tokens =
      [] ++ ⟨.ident, some "ab", some ⟨⟨"b.dm", 7, 1⟩, ⟨"b.dm", 7, 3⟩⟩⟩ ::
        [⟨.ident, some "c", some ⟨⟨"b.dm", 7, 4⟩, ⟨"b.dm", 7, 5⟩⟩⟩] := by decide +kernel
  obtain ⟨-, asked, tokens⟩ := position_law .standard "a.dm" "# 7 \x22b.dm\x22\nab c" .empty
  obtain ⟨read, others, stop, pieces, -, -, -, -, law⟩ :=
    asked [.next] fun e failed => by simp [running] at failed
  obtain ⟨read', p, others', pieces', -, -, -, apart, span⟩ := tokens _ _ _ scanned rfl
  exact ⟨⟨read, others, pieces, place.symm.trans law⟩, read', p, others', pieces', apart, span⟩

end DreamLexer
