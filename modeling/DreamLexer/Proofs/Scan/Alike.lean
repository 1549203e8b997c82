import DreamLexer.Proofs.Layout.Handed

/-!
# What the options leave alone

Only the width of a tab changes where a scan goes. Two scanners that stand at the same place of the
text with the same indentation pass the same pieces and end in the same way, whatever else is chosen
and whatever was handed out before: `run_alike`.
-/

namespace DreamLexer

namespace Scanner

/-- Two scanners that go the same way. -/
structure Alike (s t : Scanner) : Prop where
  cursor : s.cursor = t.cursor
  indent : s.layout.indent = t.layout.indent

end Scanner

/-- Two steps that go on alike, or end in the same way. -/
inductive Step.Alike : Step → Step → Prop where
  | placed {tokens tokens' : List Token} {next next' : Scanner} (alike : next.Alike next') :
      Alike (.placed tokens next) (.placed tokens' next')
  | ended {tokens tokens' : List Token} {last last' : Scanner} (ending : Ending) :
      Alike (.ended tokens ending last) (.ended tokens' ending last')

theorem Options.effectiveTabWidth_congr {o o' : Options} (h : o.tabWidth = o'.tabWidth) :
    o.effectiveTabWidth = o'.effectiveTabWidth := by
  unfold effectiveTabWidth
  rw [h]

namespace Scanner

theorem pieces_of_placed {o : Options} {s next : Scanner} {tokens : List Token}
    (h : s.step o = .placed tokens next) : s.pieces o = s.stepPieces o ++ next.pieces o := by
  rw [pieces]
  split
  next h' =>
    obtain ⟨rfl, rfl⟩ := by simpa using h.symm.trans h'
    rfl
  next h' => simp [h] at h'

theorem pieces_of_ended {o : Options} {s last : Scanner} {tokens : List Token} {ending : Ending}
    (h : s.step o = .ended tokens ending last) : s.pieces o = s.stepPieces o := by
  rw [pieces]
  split
  next h' => simp [h] at h'
  next => rfl

variable {o o' : Options} {s t : Scanner}

theorem Alike.inIndentation (alike : s.Alike t) :
    s.layout.inIndentation = t.layout.inIndentation :=
  congrArg Option.isSome alike.indent

theorem passBlanks_alike (width : o.effectiveTabWidth = o'.effectiveTabWidth) (alike : s.Alike t) :
    (s.passBlanks o).Alike (t.passBlanks o') := by
  have blanks := alike.inIndentation
  obtain ⟨cursor, indent⟩ := alike
  refine ⟨?_, ?_⟩
  · simp only [passBlanks, cursor, blanks, width]
  · simp only [passBlanks, Layout.passTabs, cursor, blanks, indent]

theorem lexemePieces_alike (width : o.effectiveTabWidth = o'.effectiveTabWidth)
    (alike : s.Alike t) : s.lexemePieces o = t.lexemePieces o' := by
  unfold lexemePieces
  rw [alike.cursor, width]

theorem readLexeme_alike (width : o.effectiveTabWidth = o'.effectiveTabWidth)
    (alike : s.Alike t) : (s.readLexeme o).Alike (t.readLexeme o') := by
  obtain ⟨cursor, indent⟩ := alike
  unfold readLexeme
  rw [cursor]
  split
  next => exact .ended _
  next c rest here =>
    split
    next fault unread =>
      simp only [fail, cursor, width]
      exact .ended _
    next r read =>
      refine .placed ⟨?_, ?_⟩
      · simp only [cursor, width]
      · show (s.layout.place o r.lexeme _).2.indent = (t.layout.place o' r.lexeme _).2.indent
        rw [Layout.indent_place, Layout.indent_place, indent]

theorem followed_alike {c : Cursor} (alike : s.Alike t) :
    ({ s with cursor := c } : Scanner).Alike { t with cursor := c } := ⟨rfl, alike.indent⟩

theorem stepPieces_alike (width : o.effectiveTabWidth = o'.effectiveTabWidth)
    (alike : s.Alike t) : s.stepPieces o = t.stepPieces o' := by
  unfold stepPieces
  rw [alike.cursor]
  cases followed : t.cursor.followMarkers with
  | error stuck => rfl
  | ok cursor =>
    have behind := followed_alike (c := cursor) alike
    dsimp only
    rw [lexemePieces_alike width (passBlanks_alike width behind), alike.inIndentation]

theorem step_alike (width : o.effectiveTabWidth = o'.effectiveTabWidth) (alike : s.Alike t) :
    (s.step o).Alike (t.step o') := by
  unfold step
  rw [alike.cursor]
  cases followed : t.cursor.followMarkers with
  | error stuck =>
    dsimp only
    simp only [fail, width]
    exact .ended _
  | ok cursor => exact readLexeme_alike width (passBlanks_alike width (followed_alike alike))

/-- Two scanners that go the same way pass the same pieces and end in the same way. -/
theorem run_alike (width : o.effectiveTabWidth = o'.effectiveTabWidth) (alike : s.Alike t) :
    s.pieces o = t.pieces o' ∧ (s.run o).ending = (t.run o').ending := by
  fun_induction pieces o s generalizing t with
  | case1 s tokens next placed ih =>
    have steps := step_alike width alike
    rw [placed] at steps
    generalize other : t.step o' = step at steps
    cases steps with
    | placed behind =>
      obtain ⟨pieces, ending⟩ := ih behind
      rw [pieces_of_placed other, stepPieces_alike width alike, pieces, run_eq, run_eq, placed,
        other]
      exact ⟨rfl, ending⟩
  | case2 s tokens ending last ended =>
    have steps := step_alike width alike
    rw [ended] at steps
    generalize other : t.step o' = step at steps
    cases steps with
    | ended =>
      rw [pieces_of_ended other, stepPieces_alike width alike, run_eq, run_eq, ended, other]
      exact ⟨rfl, rfl⟩

end Scanner

/-- The pieces of a unit and its end depend on the width of a tab alone. -/
theorem unit_alike {o o' : Options} (width : o.effectiveTabWidth = o'.effectiveTabWidth)
    (unit text : String) :
    unitPieces o unit text = unitPieces o' unit text ∧
      ((Scanner.start unit text.toList).run o).ending =
        ((Scanner.start unit text.toList).run o').ending :=
  Scanner.run_alike width ⟨rfl, rfl⟩

end DreamLexer
