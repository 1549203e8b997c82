import DreamLexer.Proofs.Scan.Document
import DreamLexer.Proofs.Scan.LineStart

/-!
# The course of a scan

A run passes pieces, and conversely pieces that can be passed are what the run passes:
`Moves.run_eq` says that moves from a scanner are the start of its run. A scanner is `Ready` if the
next thing it does is to read a lexeme. `run_failed` says at which scanner a run that fails is stuck.
-/

namespace DreamLexer

theorem Cursor.atDirective_iff {c : Cursor} :
    c.atDirective ↔ c.point.isLineStart ∧ ∃ rest, c.rest = '#' :: rest := by
  rw [atDirective, Bool.and_eq_true, beq_iff_eq, List.head?_eq_some_iff]

/-- A directive takes at least its sign. -/
theorem Cursor.wholeLine_of_atDirective {c : Cursor} (stands : c.atDirective) :
    ∃ line, c.wholeLine = '#' :: line := by
  obtain ⟨-, rest, here⟩ := atDirective_iff.1 stands
  simp [wholeLine, line, here]

variable {o : Options} {s t : Scanner} {p : Piece} {pieces : List Piece}

namespace Scanner

/-- Neither a directive nor a blank stands here. -/
structure Ready (s : Scanner) : Prop where
  clear : s.cursor.atDirective = false
  solid : Lexeme.NextIs (fun c => ¬ isPassed s.layout.inIndentation c) s.cursor.rest

theorem passBlanks_of_takeWhile_eq_nil
    (nothing : s.cursor.rest.takeWhile (isPassed s.layout.inIndentation) = []) :
    s.passBlanks o = s := by
  have whole : s.cursor.rest.takeWhile (isPassed s.layout.inIndentation) ++
      s.cursor.rest.dropWhile (isPassed s.layout.inIndentation) = s.cursor.rest :=
    List.takeWhile_append_dropWhile
  rw [nothing, List.nil_append] at whole
  have indent : s.layout.passTabs 0 = s.layout := by simp [Layout.passTabs]
  rw [passBlanks, nothing, whole]
  simp [Cursor.pass, indent]

theorem passBlanks_of_ready (ready : s.Ready) : s.passBlanks o = s := by
  have nothing : ([] ++ s.cursor.rest).takeWhile (isPassed s.layout.inIndentation) = [] :=
    Lexeme.takeWhile_of_nextIs (List.forall_mem_nil _) ready.solid
  exact passBlanks_of_takeWhile_eq_nil nothing

theorem step_of_ready (ready : s.Ready) : s.step o = s.readLexeme o := by
  rw [step_of_not_directive ready.clear, passBlanks_of_ready ready]

theorem inIndentation_passBlanks (o : Options) (s : Scanner) :
    (s.passBlanks o).layout.inIndentation = s.layout.inIndentation := by
  simp [passBlanks, Layout.passTabs, Layout.inIndentation]

/-- Blanks do not lead to the first column, so no directive stands behind them. -/
theorem ready_passBlanks (counted : s.cursor.point.Counted) (clear : s.cursor.atDirective = false) :
    (s.passBlanks o).Ready := by
  constructor
  · cases last : (s.cursor.rest.takeWhile (isPassed s.layout.inIndentation)).getLast? with
    | none =>
      rwa [passBlanks_of_takeWhile_eq_nil (List.getLast?_eq_none_iff.1 last)]
    | some c =>
      have passed := List.all_eq_true.1 List.all_takeWhile c (List.mem_of_getLast? last)
      have newline : c ≠ '\n' := (not_isWordPart_of_isPassed passed).1
      have off : ¬ (s.passBlanks o).cursor.point.isLineStart := by
        show ¬ (s.cursor.point.advanceOver o.effectiveTabWidth _).isLineStart
        rwa [Position.isLineStart_advanceOver o.effectiveTabWidth_pos counted last]
      simp [Cursor.atDirective, off]
  · rw [inIndentation_passBlanks]
    exact Lexeme.nextIs_dropWhile _ _

theorem ready_of_isPlain {c : Char} {rest : List Char} (here : s.cursor.rest = c :: rest)
    (plain : IsPlain c) : s.Ready := by
  constructor
  · simp [Cursor.atDirective, here, plain.1]
  · rw [here]
    exact Lexeme.nextIs_cons.2 (not_isPassed_of_isPlain plain)

/-- A lexeme is read where it is spelled. -/
theorem ready_of_spelled {lexeme : Lexeme} {raw rest : List Char} {point : Position} {l : Layout}
    (spelled : lexeme.Spelled raw rest) : (⟨⟨raw ++ rest, point⟩, l⟩ : Scanner).Ready := by
  obtain ⟨c, head, plain⟩ := spelled.head?
  obtain ⟨tail, rfl⟩ : ∃ tail, raw = c :: tail := List.head?_eq_some_iff.1 head
  exact ready_of_isPlain rfl plain

theorem step_of_marker {c : Cursor} {l : Layout} {m : Linemarker} (stands : c.atDirective)
    (parsed : Linemarker.parse? c.line = some m) :
    step o ⟨c, l⟩ = step o ⟨⟨c.linesBehind, ⟨m.unit, m.line, 1⟩⟩, l⟩ := by
  have followed : c.followMarkers =
      Cursor.followMarkers ⟨c.linesBehind, ⟨m.unit, m.line, 1⟩⟩ := by
    rw [Cursor.followMarkers, if_pos stands, parsed]
  unfold step
  rw [followed]

/-- The run goes on behind a step that reads nothing of its own. -/
theorem run_of_step_eq (h : s.step o = t.step o) : s.run o = t.run o := by
  rw [run_eq, run_eq o t, h]

end Scanner

/-- A move keeps counting. -/
theorem Move.counted (move : Move o s p t) (counted : s.cursor.point.Counted) :
    t.cursor.point.Counted := by
  cases move with
  | marker stands parsed => exact Nat.le_refl 1
  | blanks clear => exact Position.counted_advanceOver counted
  | lexeme spelled covers =>
    subst covers
    exact Position.counted_advanceOver counted

/-- A move is the start of the run. -/
theorem Move.run_eq (move : Move o s p t) (counted : s.cursor.point.Counted) :
    s.run o = { t.run o with tokens := (s.layout.read o p).1 ++ (t.run o).tokens } := by
  cases move with
  | marker stands parsed => exact Scanner.run_of_step_eq (Scanner.step_of_marker stands parsed)
  | blanks clear =>
    have step : s.step o = (s.passBlanks o).step o := by
      rw [Scanner.step_of_not_directive clear,
        Scanner.step_of_ready (Scanner.ready_passBlanks counted clear)]
    exact Scanner.run_of_step_eq step
  | @lexeme rest raw point l lexeme span spelled covers =>
    obtain ⟨c, tail, rfl⟩ := List.exists_cons_of_ne_nil spelled.ne_nil
    have read : Lexeme.read c (tail ++ rest) = .ok ⟨lexeme, c :: tail, rest⟩ :=
      Lexeme.read_complete rfl spelled
    have step : (⟨⟨c :: tail ++ rest, point⟩, l⟩ : Scanner).step o =
        .placed (l.place o lexeme span).1 ⟨⟨rest, span.stop⟩, (l.place o lexeme span).2⟩ := by
      subst covers
      rw [Scanner.step_of_ready (Scanner.ready_of_spelled spelled), Scanner.readLexeme]
      simp only [List.cons_append, read]
      rfl
    rw [Scanner.run_eq, step]
    rfl

namespace Moves

theorem counted (moves : Moves o s pieces t) (counted : s.cursor.point.Counted) :
    t.cursor.point.Counted := by
  induction moves with
  | refl => exact counted
  | head move _ ih => exact ih (move.counted counted)

/-- Moves are the start of the run. -/
theorem run_eq (moves : Moves o s pieces t) (counted : s.cursor.point.Counted) :
    s.run o = { t.run o with tokens := s.layout.tokens o pieces ++ (t.run o).tokens } := by
  induction moves with
  | refl => rfl
  | head move _ ih =>
    rw [move.run_eq counted, ih (move.counted counted), move.layout_eq, Layout.tokens_cons,
      List.append_assoc]

end Moves

namespace Scanner

/-- At the end of the text a run is finished. -/
theorem run_of_end (done : s.cursor.rest = []) :
    s.run o = ⟨(s.layout.finish o).1, .finished, ⟨s.cursor, (s.layout.finish o).2⟩⟩ := by
  have ready : s.Ready := by
    constructor
    · simp [Cursor.atDirective, done]
    · rw [done]
      exact Lexeme.nextIs_nil
  have step : s.step o = s.finish o := by
    rw [step_of_ready ready, readLexeme]
    split
    next => rfl
    next here => simp [done] at here
  rw [run_eq, step]
  rfl

/-- The faults that keep a scan from going on. -/
inductive Stuck (s : Scanner) : Fault → Prop where
  | directive (stands : s.cursor.atDirective) (unparsed : Linemarker.parse? s.cursor.line = none) :
      Stuck s (.directive s.cursor.line)
  | lexeme {c : Char} {rest : List Char} {fault : Fault} (ready : s.Ready)
      (here : s.cursor.rest = c :: rest) (unread : Lexeme.read c rest = .error fault) :
      Stuck s fault

/-- The error for a fault met here. -/
def errorOf (o : Options) (s : Scanner) (fault : Fault) : LexError :=
  fault.error s.cursor.point (s.cursor.point.advanceOver o.effectiveTabWidth s.cursor.rest)

theorem failed_inv {fault : Fault} {tokens : List Token} {e : LexError} {last : Scanner}
    (h : s.fail o fault = .ended tokens (.failed e) last) : e = s.errorOf o fault := by
  obtain ⟨-, rfl, -⟩ := by simpa [fail] using h
  cases fault <;> rfl

/-- A step that fails moves to where it is stuck. -/
theorem step_failed {tokens : List Token} {e : LexError} {last : Scanner}
    (counted : s.cursor.point.Counted) (h : s.step o = .ended tokens (.failed e) last) :
    ∃ stop fault, Moves o s (s.stepPieces o) stop ∧ stop.Stuck fault ∧ e = stop.errorOf o fault := by
  obtain ⟨c, l⟩ := s
  unfold step at h
  cases followed : c.followMarkers with
  | error stuck =>
    rw [followed] at h
    have moves : Moves o ⟨c, l⟩ (stepPieces o ⟨c, l⟩) ⟨stuck, l⟩ := by
      simpa [stepPieces, followed] using Cursor.moves_followMarkers l (.inr followed)
    obtain ⟨stands, unparsed⟩ := Cursor.stuck_followMarkers followed
    exact ⟨⟨stuck, l⟩, _, moves, .directive stands unparsed, failed_inv h⟩
  | ok d =>
    rw [followed] at h
    have clear := Cursor.atDirective_followMarkers followed
    have marked : Moves o ⟨c, l⟩ c.markerPieces ⟨d, l⟩ :=
      Cursor.moves_followMarkers l (.inl followed)
    have moves := marked.append (.single (Move.blanks (s := ⟨d, l⟩) clear))
    have ready : (passBlanks o ⟨d, l⟩).Ready := ready_passBlanks (marked.counted counted) clear
    change readLexeme o (passBlanks o ⟨d, l⟩) = _ at h
    cases here : (passBlanks o ⟨d, l⟩).cursor.rest with
    | nil => simp [readLexeme, here, finish] at h
    | cons first rest =>
      cases read : Lexeme.read first rest with
      | ok r => simp [readLexeme, here, read, place] at h
      | error fault =>
        have pieces : stepPieces o ⟨c, l⟩ =
            c.markerPieces ++ [.blanks (d.rest.takeWhile (isPassed l.inIndentation))] := by
          simp [stepPieces, followed, lexemePieces, here, read]
        rw [pieces]
        simp only [readLexeme, here, read] at h
        exact ⟨_, fault, moves, .lexeme ready here read, failed_inv h⟩

/-- A run that fails moves to where it is stuck. -/
theorem run_failed {e : LexError} (counted : s.cursor.point.Counted)
    (h : (s.run o).ending = .failed e) :
    ∃ stop fault, Moves o s (s.pieces o) stop ∧ stop.Stuck fault ∧ e = stop.errorOf o fault := by
  fun_induction pieces o s with
  | case1 s tokens next placed ih =>
    have spec := step_spec o s
    rw [placed] at spec
    cases spec with
    | placed first =>
      rw [run_eq, placed] at h
      obtain ⟨stop, fault, moves, stuck, same⟩ := ih (first.counted counted) h
      exact ⟨stop, fault, first.append moves, stuck, same⟩
  | case2 s tokens ending last ended =>
    rw [run_eq, ended] at h
    obtain rfl : ending = .failed e := h
    exact step_failed counted ended

end Scanner

end DreamLexer
