import DreamLexer.Proofs.Layout.Handed
import DreamLexer.Proofs.Scan.Course
import Mathlib.Data.List.Forall2

/-!
# Two scans side by side

Two scans, of the same text or of two texts, are compared move by move. A `Simulation` is a relation
between their scanners that every move of the first scan can keep up, with tokens that correspond,
until both come to an end that corresponds. `Simulation.run` carries that over to whole runs and
`Simulation.lexUnit` to units.
-/

namespace DreamLexer

/-- Two scans that both come to the end of their text, or fail with errors that correspond. -/
inductive Ending.Related (E : LexError → LexError → Prop) : Ending → Ending → Prop where
  | finished : Related E .finished .finished
  | failed {e e' : LexError} (errors : E e e') : Related E (.failed e) (.failed e')

/-- Two units that both lex, to tokens that correspond one by one, or fail with errors that
correspond. -/
inductive LexedAlike (T : Token → Token → Prop) (E : LexError → LexError → Prop) :
    Except LexError (List Token) → Except LexError (List Token) → Prop where
  | ok {tokens tokens' : List Token} (corresponding : List.Forall₂ T tokens tokens') :
      LexedAlike T E (.ok tokens) (.ok tokens')
  | error {e e' : LexError} (errors : E e e') : LexedAlike T E (.error e) (.error e')

variable {o o' : Options} {s s' t : Scanner} {p p' : Piece} {pieces : List Piece}

namespace Scanner

/-- A scan that is stuck fails, and hands out nothing. -/
theorem run_of_stuck {fault : Fault} (stuck : s.Stuck fault) :
    (s.run o).tokens = [] ∧ (s.run o).ending = .failed (s.errorOf o fault) := by
  have failed {stop : Scanner} (step : stop.step o = stop.fail o fault) :
      (stop.run o).tokens = [] ∧ (stop.run o).ending = .failed (stop.errorOf o fault) := by
    rw [run_eq, step]
    refine ⟨rfl, ?_⟩
    simp only [fail, errorOf]
    cases fault <;> rfl
  apply failed
  cases stuck with
  | directive stands unparsed =>
    unfold step
    rw [Cursor.followMarkers, if_pos stands, unparsed]
  | lexeme ready here unread =>
    rw [step_of_ready ready, readLexeme, here]
    simp only [unread]

/-- A run moves to the end of the text or to where it is stuck. -/
theorem run_course (o : Options) (counted : s.cursor.point.Counted) :
    ∃ stop, Moves o s (s.pieces o) stop ∧
      (stop.cursor.rest = [] ∨ ∃ fault, stop.Stuck fault) := by
  cases ended : (s.run o).ending with
  | finished =>
    obtain ⟨stop, last, moves, -, ends⟩ := run_spec o s
    rw [ended] at ends
    exact ⟨stop, moves, .inl ends.finished_inv.1⟩
  | failed e =>
    obtain ⟨stop, fault, moves, stuck, -⟩ := run_failed counted ended
    exact ⟨stop, moves, .inr ⟨fault, stuck⟩⟩

/-- A relation between the scanners of two scans that lasts until both end alike. -/
structure Simulation (o o' : Options) (T : Token → Token → Prop) (E : LexError → LexError → Prop)
    (R : Scanner → Scanner → Prop) : Prop where
  counted : ∀ {s s'}, R s s' → s.cursor.point.Counted ∧ s'.cursor.point.Counted
  /-- A move of the first scan is answered by moves of the second one. -/
  move : ∀ {s s' p t}, R s s' → Move o s p t → ∃ answer t', Moves o' s' answer t' ∧ R t t' ∧
    List.Forall₂ T (s.layout.read o p).1 (s'.layout.tokens o' answer)
  finished : ∀ {s s'}, R s s' → s.cursor.rest = [] → s'.cursor.rest = [] ∧
    List.Forall₂ T (s.layout.finish o).1 (s'.layout.finish o').1
  stuck : ∀ {s s' fault}, R s s' → s.Stuck fault → ∃ fault', s'.Stuck fault' ∧
    E (s.errorOf o fault) (s'.errorOf o' fault')

namespace Simulation

variable {T : Token → Token → Prop} {E : LexError → LexError → Prop}
  {R : Scanner → Scanner → Prop}

/-- Moves of the first scan are answered by moves of the second one. -/
theorem moves (sim : Simulation o o' T E R) (related : R s s') (h : Moves o s pieces t) :
    ∃ answer t', Moves o' s' answer t' ∧ R t t' ∧
      List.Forall₂ T (s.layout.tokens o pieces) (s'.layout.tokens o' answer) := by
  induction h generalizing s' with
  | refl s => exact ⟨[], s', .refl s', related, .nil⟩
  | head move _ ih =>
    obtain ⟨first, t', here, related', tokens⟩ := sim.move related move
    obtain ⟨others, u', later, related'', tokens'⟩ := ih related'
    refine ⟨first ++ others, u', here.append later, related'', ?_⟩
    rw [Layout.tokens_cons, Layout.tokens_append, ← here.layout_eq, ← move.layout_eq]
    exact List.rel_append tokens tokens'

/-- Scans that are related run alike. -/
theorem run (sim : Simulation o o' T E R) (related : R s s') :
    List.Forall₂ T (s.run o).tokens (s'.run o').tokens ∧
      Ending.Related E (s.run o).ending (s'.run o').ending := by
  obtain ⟨counted, counted'⟩ := sim.counted related
  obtain ⟨stop, first, ends⟩ := run_course o counted
  obtain ⟨answer, stop', second, related', tokens⟩ := sim.moves related first
  rw [first.run_eq counted, second.run_eq counted']
  rcases ends with done | ⟨fault, stuck⟩
  · obtain ⟨done', last⟩ := sim.finished related' done
    rw [run_of_end done, run_of_end done']
    exact ⟨List.rel_append tokens last, .finished⟩
  · obtain ⟨fault', stuck', errors⟩ := sim.stuck related' stuck
    obtain ⟨nothing, failed⟩ := run_of_stuck (o := o) stuck
    obtain ⟨nothing', failed'⟩ := run_of_stuck (o := o') stuck'
    simp only [nothing, nothing', failed, failed', List.append_nil]
    exact ⟨tokens, .failed errors⟩

/-- Units whose scans are related lex alike. -/
theorem lexUnit (sim : Simulation o o' T E R) {unit unit' text text' : String}
    (related : R (.start unit text.toList) (.start unit' text'.toList))
    (told told' : Diagnostics) :
    LexedAlike T E (lexUnit o unit text told).1 (lexUnit o' unit' text' told').1 := by
  obtain ⟨tokens, endings⟩ := sim.run related
  rw [lexUnit_eq, lexUnit_eq]
  generalize ((Scanner.start unit text.toList).run o).ending = ending at endings
  generalize ((Scanner.start unit' text'.toList).run o').ending = ending' at endings
  cases endings with
  | finished => exact .ok tokens
  | failed errors => exact .error errors

end Simulation

end Scanner

/-- Pieces that two layouts treat alike, though they may be spelled or placed differently. -/
inductive Piece.Similar (T : Token → Token → Prop) (o o' : Options) : Piece → Piece → Prop where
  | marker {raw raw' : List Char} {m m' : Linemarker} :
      Similar T o o' (.marker raw m) (.marker raw' m')
  | blanks {raw raw' : List Char} (tabs : raw.count '\t' = raw'.count '\t') :
      Similar T o o' (.blanks raw) (.blanks raw')
  | breaking {raw raw' : List Char} {lexeme : Lexeme} {span span' : Span}
      (breaks : lexeme.settles = false) :
      Similar T o o' (.lexeme raw lexeme span) (.lexeme raw' lexeme span')
  | settling {raw raw' : List Char} {lexeme lexeme' : Lexeme} {span span' : Span}
      (settles : lexeme.settles) (settles' : lexeme'.settles)
      (tokens : List.Forall₂ T (lexeme.token? o span).toList (lexeme'.token? o' span').toList) :
      Similar T o o' (.lexeme raw lexeme span) (.lexeme raw' lexeme' span')

/-- A token that stands for no text of its own. -/
structure Token.IsBare (t : Token) : Prop where
  span : t.span = none
  payload : t.payload = none

namespace Layout

/-- If bare tokens correspond to themselves, so do lists of them. -/
theorem bare_similar {T : Token → Token → Prop} (bare : ∀ t, t.IsBare → T t t)
    {tokens : List Token} (all : ∀ t ∈ tokens, t.IsBare) : List.Forall₂ T tokens tokens := by
  apply List.forall₂_same.2
  intro t member
  exact bare t (all t member)

theorem afterTokens_congr {tokens tokens' : List Token} (h : tokens.length = tokens'.length)
    (l : Layout) : l.afterTokens tokens = l.afterTokens tokens' := by
  have empty : tokens.isEmpty = tokens'.isEmpty := by
    rw [Bool.eq_iff_iff, List.isEmpty_iff_length_eq_zero, List.isEmpty_iff_length_eq_zero, h]
  rw [afterTokens, afterTokens, empty]

theorem newline_similar {T : Token → Token → Prop} (bare : ∀ t, t.IsBare → T t t)
    (newlines : o.collapseNewlines = o'.collapseNewlines) (l : Layout) :
    List.Forall₂ T (l.newline o).1 (l.newline o').1 ∧ (l.newline o).2 = (l.newline o').2 := by
  have same : l.newline o = l.newline o' := by
    unfold newline
    rw [newlines]
  rw [← same]
  refine ⟨bare_similar bare ?_, rfl⟩
  intro t member
  rcases (newline_spec o l).1 with nothing | newline
  · simp [nothing] at member
  · obtain rfl : t = .newline := by simpa [newline] using member
    exact ⟨rfl, rfl⟩

/-- Similar pieces hand out tokens that correspond, and leave the same layout. -/
theorem read_similar {T : Token → Token → Prop} (similar : p.Similar T o o' p')
    (bare : ∀ t, t.IsBare → T t t) (newlines : o.collapseNewlines = o'.collapseNewlines)
    (l : Layout) :
    List.Forall₂ T (l.read o p).1 (l.read o' p').1 ∧ (l.read o p).2 = (l.read o' p').2 := by
  cases similar with
  | marker => exact ⟨.nil, rfl⟩
  | blanks tabs =>
    refine ⟨.nil, ?_⟩
    simp only [read, tabs]
  | @breaking raw raw' lexeme span span' breaks =>
    cases lexeme with
    | lineBreak => exact newline_similar bare newlines { l with indent := some 0 }
    | separator => exact newline_similar bare newlines l
    | _ => simp [Lexeme.settles] at breaks
  | settling settles settles' tokens =>
    have marks : List.Forall₂ T l.settle.1 l.settle.1 := by
      apply bare_similar bare
      intro t member
      rcases mem_settle member with rfl | rfl <;> exact ⟨rfl, rfl⟩
    have all := List.rel_append marks tokens
    simp only [read, place_of_settles settles, place_of_settles settles']
    exact ⟨all, afterTokens_congr all.length_eq _⟩

/-- What is handed out at the end is bare. -/
theorem finish_similar {T : Token → Token → Prop} (bare : ∀ t, t.IsBare → T t t)
    (closes : o.closeBlocksAtEof = o'.closeBlocksAtEof) (l : Layout) :
    List.Forall₂ T (l.finish o).1 (l.finish o').1 := by
  have same : l.finish o = l.finish o' := by
    unfold finish
    rw [closes]
  rw [← same]
  apply bare_similar bare
  intro t member
  rw [mem_finish member]
  exact ⟨rfl, rfl⟩

end Layout

end DreamLexer
