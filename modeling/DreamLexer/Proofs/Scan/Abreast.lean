import DreamLexer.Proofs.Scan.Parallel

/-!
# Tab widths and unit names leave the tokens alone

Two units with the same text are lexed under different names and with tabs of different widths. The
widths decide about columns only, and the names only about the positions in front of which no
linemarker was passed. `lexUnit_withTabs` says so of tokens and errors alike.
-/

namespace DreamLexer

/-- The unit of a position behind these linemarkers: the one that the last of them names, or the
unit that is scanned. -/
def unitBehind (unit : String) (marks : List Mark) : String :=
  match marks.getLast? with
  | none => unit
  | some m => m.marker.unit

/-- Positions in two units with the same text, both behind these linemarkers of it. -/
structure Position.Abreast (unit unit' : String) (marks : List Mark) (p p' : Position) : Prop where
  line : p.line = p'.line
  unit : p.unit = unitBehind unit marks
  unit' : p'.unit = unitBehind unit' marks

/-- The scan of the unit reads the token from `raw` when it has passed `before`, and with it these
linemarkers. -/
def Token.ReadFrom (o : Options) (unit text : String) (before : List Char) (marks : List Mark)
    (raw : List Char) (t : Token) : Prop :=
  ∃ read p s next, Moves o (.start unit text.toList) read s ∧ Move o s p next ∧
    p.token? o = some t ∧ Piece.text read = before ∧ Piece.marks 0 read = marks ∧ p.raw = raw

/-- The scan of the unit is stuck when it has passed `before`, and with it these linemarkers. -/
def LexError.FoundBehind (o : Options) (unit text : String) (before : List Char)
    (marks : List Mark) (e : LexError) : Prop :=
  ∃ read stop fault, Moves o (.start unit text.toList) read stop ∧ stop.Stuck fault ∧
    e = stop.errorOf o fault ∧ Piece.text read = before ∧ Piece.marks 0 read = marks

/-- Tokens of two units with the same text that are read from the same stretch of it, if they are
read from one, and differ in the columns and the names of the units at most. -/
structure Token.Abreast (o o' : Options) (unit unit' text : String) (t t' : Token) : Prop where
  outline : t.SameOutline t'
  spans : ∀ span span', t.span = some span → t'.span = some span' → ∃ before marks raw,
    t.ReadFrom o unit text before marks raw ∧ t'.ReadFrom o' unit' text before marks raw ∧
      span.start.Abreast unit unit' marks span'.start ∧
      span.stop.Abreast unit unit' marks span'.stop

/-- Errors of two units with the same text that are met at the same place of it, and differ in the
column and the name of the unit at most. -/
structure LexError.Abreast (o o' : Options) (unit unit' text : String) (e e' : LexError) :
    Prop where
  message : e.SameMessage e'
  position : ∃ before marks, e.FoundBehind o unit text before marks ∧
    e'.FoundBehind o' unit' text before marks ∧
      e.position.Abreast unit unit' marks e'.position

/-- Bare tokens were read nowhere. -/
theorem Token.Abreast.of_bare {o o' : Options} {unit unit' text : String} (t : Token)
    (bare : t.IsBare) : Token.Abreast o o' unit unit' text t t where
  outline := .refl t
  spans := by simp [bare.span]

variable {o : Options} {width : UInt32} {unit unit' text : String} {s s' t : Scanner}
  {p : Piece} {read read' : List Piece}

/-- The unit that a scan stands in is named by the last linemarker that it has passed. -/
theorem Moves.unit_eq {text : List Char} (moves : Moves o (.start unit text) read s) :
    s.cursor.point.unit = unitBehind unit (Piece.marks 0 read) := by
  rw [moves.point_of_marks, placeAt_length fun m => Piece.stop_le_of_mem_marks, unitBehind]
  cases (Piece.marks 0 read).getLast? with
  | none => exact Position.unit_advanceOver _ _
  | some m => exact Position.unit_advanceOver _ _

namespace Piece

/-- Parallel pieces are spelled alike and hold the same linemarkers. -/
theorem text_marks_of_parallel (h : List.Forall₂ Parallel read read') (offset : Nat) :
    Piece.text read = Piece.text read' ∧ marks offset read = marks offset read' := by
  induction h generalizing offset with
  | nil => exact ⟨rfl, rfl⟩
  | @cons p p' read read' here _ ih =>
    obtain ⟨raw, marks_eq⟩ : p.raw = p'.raw ∧ marks offset [p] = marks offset [p'] := by
      cases here <;> exact ⟨rfl, rfl⟩
    obtain ⟨text_eq, behind⟩ := ih (offset + p.raw.length)
    rw [text_cons, text_cons, text_eq, raw, marks_cons, marks_cons offset p', marks_eq, behind, raw]
    exact ⟨rfl, rfl⟩

end Piece

/-- Scanners of two units with the same text that have passed the same of it. -/
structure Scanner.Abreast (o o' : Options) (unit unit' text : String) (s s' : Scanner) : Prop where
  parallel : s.Parallel s'
  line : s.cursor.point.line = s'.cursor.point.line
  passed : ∃ read read', Moves o (.start unit text.toList) read s ∧
    Moves o' (.start unit' text.toList) read' s' ∧ List.Forall₂ Piece.Parallel read read'

namespace Scanner.Abreast

theorem start (o o' : Options) (unit unit' text : String) :
    Abreast o o' unit unit' text (.start unit text.toList) (.start unit' text.toList) where
  parallel := ⟨rfl, rfl, Nat.le_refl 1, Nat.le_refl 1, rfl⟩
  line := rfl
  passed := ⟨[], [], .refl _, .refl _, .nil⟩

/-- A move of one scan is a move of the other one over a parallel piece, and both read the same
token from it. -/
theorem move (h : Abreast o (o.withTabs width) unit unit' text s s') (move : Move o s p t) :
    ∃ p' t', Move (o.withTabs width) s' p' t' ∧
      Abreast o (o.withTabs width) unit unit' text t t' ∧
      p.Similar (Token.Abreast o (o.withTabs width) unit unit' text) o (o.withTabs width) p' := by
  obtain ⟨read, read', moves, moves', parallel⟩ := h.passed
  obtain ⟨p', t', move', behind, same, line⟩ := move.parallel width h.parallel
  have through := moves.append (.single move)
  have through' := moves'.append (.single move')
  have both : List.Forall₂ Piece.Parallel (read ++ [p]) (read' ++ [p']) :=
    List.rel_append parallel (.cons same .nil)
  refine ⟨p', t', move', ⟨behind, line h.line, _, _, through, through', both⟩, ?_⟩
  apply same.similar
  intro token token' own own' outline
  refine ⟨outline, ?_⟩
  intro span span' spanned spanned'
  obtain ⟨text_eq, marks_eq⟩ := Piece.text_marks_of_parallel parallel 0
  have raw : p.raw = p'.raw := by cases same <;> rfl
  -- A token's piece is no linemarker, so the same ones stand before its end as before its start.
  have unit_behind : t.cursor.point.unit = unitBehind unit (Piece.marks 0 read) := by
    rw [through.unit_eq, Piece.marks_append, Piece.marks_of_token? own, List.append_nil]
  have unit_behind' : t'.cursor.point.unit = unitBehind unit' (Piece.marks 0 read) := by
    rw [through'.unit_eq, Piece.marks_append, Piece.marks_of_token? own', List.append_nil, marks_eq]
  obtain rfl : ⟨s.cursor.point, t.cursor.point⟩ = span :=
    Option.some.inj ((move.span_of_token? own).symm.trans spanned)
  obtain rfl : ⟨s'.cursor.point, t'.cursor.point⟩ = span' :=
    Option.some.inj ((move'.span_of_token? own').symm.trans spanned')
  exact ⟨_, _, _, ⟨read, p, s, t, moves, move, own, rfl, rfl, rfl⟩,
    ⟨read', p', s', t', moves', move', own', text_eq.symm, marks_eq.symm, raw.symm⟩,
    ⟨h.line, moves.unit_eq, marks_eq ▸ moves'.unit_eq⟩, ⟨line h.line, unit_behind, unit_behind'⟩⟩

/-- Both scans meet a fault where the other one does, and tell the same error. -/
theorem stuck {fault : Fault} (h : Abreast o (o.withTabs width) unit unit' text s s')
    (stuck : s.Stuck fault) :
    s'.Stuck fault ∧ LexError.Abreast o (o.withTabs width) unit unit' text (s.errorOf o fault)
      (s'.errorOf (o.withTabs width) fault) := by
  obtain ⟨read, read', moves, moves', parallel⟩ := h.passed
  obtain ⟨text_eq, marks_eq⟩ := Piece.text_marks_of_parallel parallel 0
  have stuck' := stuck.parallel h.parallel
  have here : s.cursor.point.Abreast unit unit' (Piece.marks 0 read) s'.cursor.point :=
    ⟨h.line, moves.unit_eq, marks_eq ▸ moves'.unit_eq⟩
  refine ⟨stuck', ⟨rfl, rfl⟩, _, _, ⟨read, s, fault, moves, stuck, rfl, rfl, rfl⟩,
    ⟨read', s', fault, moves', stuck', rfl, text_eq.symm, marks_eq.symm⟩, ?_⟩
  simp only [errorOf, Fault.error, LexError.ofKind]
  by_cases open_string : fault = .openString
  · rw [if_pos open_string, if_pos open_string, h.parallel.text]
    refine ⟨Position.line_advanceOver_congr here.line, ?_, ?_⟩
    · exact (Position.unit_advanceOver _ _).trans here.unit
    · exact (Position.unit_advanceOver _ _).trans here.unit'
  · rwa [if_neg open_string, if_neg open_string]

theorem simulation (o : Options) (width : UInt32) (unit unit' text : String) :
    Simulation o (o.withTabs width) (Token.Abreast o (o.withTabs width) unit unit' text)
      (LexError.Abreast o (o.withTabs width) unit unit' text)
      (Abreast o (o.withTabs width) unit unit' text) where
  counted h := ⟨h.parallel.counted, h.parallel.counted'⟩
  move := by
    intro s s' p t h move
    obtain ⟨p', t', move', behind, similar⟩ := h.move move
    refine ⟨[p'], t', .single move', behind, ?_⟩
    rw [Layout.tokens_singleton, ← h.parallel.layout]
    exact (Layout.read_similar similar Token.Abreast.of_bare rfl s.layout).1
  finished := by
    intro s s' h done
    refine ⟨h.parallel.text.symm.trans done, ?_⟩
    rw [← h.parallel.layout]
    exact Layout.finish_similar Token.Abreast.of_bare rfl s.layout
  stuck h stuck := ⟨_, h.stuck stuck⟩

end Scanner.Abreast

/-- Tab widths and unit names do not influence what is lexed. Two units with the same text and
options that differ in the width of tabs at most both lex, to tokens of the same kinds, with the same
payloads and with a span or none alike, or both fail with the same kind of error and message. A span
is in both that of the same stretch of the text. All positions are on the same lines of both, and in
the unit that the last linemarker passed before names, or else in the unit itself. -/
theorem lexUnit_withTabs (o : Options) (width : UInt32) (unit unit' text : String)
    (told told' : Diagnostics) :
    LexedAlike (Token.Abreast o (o.withTabs width) unit unit' text)
      (LexError.Abreast o (o.withTabs width) unit unit' text)
      (lexUnit o unit text told).1 (lexUnit (o.withTabs width) unit' text told').1 :=
  (Scanner.Abreast.simulation o width unit unit' text).lexUnit
    (Scanner.Abreast.start o (o.withTabs width) unit unit' text) told told'

end DreamLexer
