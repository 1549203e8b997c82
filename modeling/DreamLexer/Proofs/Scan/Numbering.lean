import DreamLexer.Proofs.Scan.Place

/-!
# Lines and columns count from one

Counting starts at one and never leads back, so a column is never zero, and a line is only if a
linemarker names it so. `Exposed` are the positions that a lexer shows, all of which are places of
its text: `Exposed.exists_unitPlace`. `exposed_numbers` says which of them lie on a line numbered
zero, and `exposed_line_zero` that there are such positions.
-/

namespace DreamLexer

/-- The positions that a lexer of a unit exposes, in whatever way it is asked. -/
inductive Exposed (o : Options) (unit text : String) : Position → Prop where
  /-- The position of the lexer itself. -/
  | own (requests : List Request) :
      Exposed o unit text ((Lexer.start o unit text .empty).askAll requests).2.position
  /-- The start of a token that was handed out. -/
  | start {requests : List Request} {token : Token} {span : Span}
      (handed : token ∈ Lexer.handedOut ((Lexer.start o unit text .empty).askAll requests).1)
      (spanned : token.span = some span) : Exposed o unit text span.start
  /-- The end of a token that was handed out. -/
  | stop {requests : List Request} {token : Token} {span : Span}
      (handed : token ∈ Lexer.handedOut ((Lexer.start o unit text .empty).askAll requests).1)
      (spanned : token.span = some span) : Exposed o unit text span.stop
  /-- The position of an error in an answer. -/
  | error {requests : List Request} {e : LexError}
      (answer : some (.error e) ∈ ((Lexer.start o unit text .empty).askAll requests).1) :
      Exposed o unit text e.position
  /-- The position of what was told. -/
  | told {requests : List Request} {d : Diagnostic} {p : Position}
      (told : d ∈ ((Lexer.start o unit text .empty).askAll requests).2.told.toList)
      (placed : d.position = some p) : Exposed o unit text p

/-- The offset lies on the line that follows the last linemarker before it, and the marker gives
that line the number zero. -/
def OnLineZero (o : Options) (unit text : String) (offset : Nat) : Prop :=
  ∃ m, ((unitMarks o unit text).filter (·.stop ≤ offset)).getLast? = some m ∧
    m.marker.line = 0 ∧ '\n' ∉ (text.toList.take offset).drop m.stop

namespace Position

variable {tabWidth : UInt32} {p : Position}

/-- A line is numbered zero as long as it is the one that was. -/
theorem line_eq_zero_advanceOver {text : List Char} :
    (p.advanceOver tabWidth text).line = 0 ↔ p.line = 0 ∧ '\n' ∉ text := by
  have value (line : UInt32) : line = 0 ↔ line.toNat = 0 := UInt32.toNat_inj.symm
  rw [value, value, toNat_line_advanceOver, ← List.count_eq_zero, counterMax]
  omega

end Position

variable {o : Options} {unit text : String} {offset : Nat} {p : Position}

/-- Every place of a unit has a column of at least one, and a line of at least one unless a
linemarker numbers that line zero. -/
theorem unitPlace_spec (o : Options) (unit text : String) (offset : Nat) :
    (unitPlace o unit text offset).Counted ∧
      ((unitPlace o unit text offset).line = 0 ↔ OnLineZero o unit text offset) := by
  unfold unitPlace placeAt OnLineZero
  cases ((unitMarks o unit text).filter (·.stop ≤ offset)).getLast? with
  | none =>
    refine ⟨Position.counted_advanceOver (Nat.le_refl 1), ?_⟩
    rw [Position.line_eq_zero_advanceOver]
    simp [Position.startOf]
  | some m =>
    refine ⟨Position.counted_advanceOver (Nat.le_refl 1), ?_⟩
    rw [Position.line_eq_zero_advanceOver]
    simp [Mark.place]

/-- What a scan passes of a text is no longer than the text. -/
theorem Moves.length_le {read : List Piece} {t : Scanner}
    (moves : Moves o (.start unit text.toList) read t) :
    (Piece.text read).length ≤ text.length := by
  have whole : text.toList = Piece.text read ++ t.cursor.rest := moves.rest_eq
  rw [← String.length_toList, whole, List.length_append]
  exact Nat.le_add_right _ _

/-- Where the scan of a unit comes to its end, and the end of the text, are places of the unit. -/
theorem exists_unitPlace_of_stop {stop : Scanner}
    (moves : Moves o (.start unit text.toList) (unitPieces o unit text) stop) :
    (∃ offset ≤ text.length, stop.cursor.point = unitPlace o unit text offset) ∧
      ∃ offset ≤ text.length, stop.cursor.point.advanceOver o.effectiveTabWidth stop.cursor.rest =
        unitPlace o unit text offset := by
  constructor
  · exact ⟨_, moves.length_le, point_eq_unitPlace (List.append_nil _).symm moves⟩
  · exact ⟨_, Nat.le_of_eq String.length_toList, moves.advanceOver_rest⟩

/-- The error of a unit is placed in its text. -/
theorem exists_unitPlace_of_failed {e : LexError}
    (failed : ((Scanner.start unit text.toList).run o).ending = .failed e) :
    ∃ offset ≤ text.length, e.position = unitPlace o unit text offset := by
  have counted : (Scanner.start unit text.toList).cursor.point.Counted := Nat.le_refl 1
  obtain ⟨stop, fault, moves, -, rfl⟩ := Scanner.run_failed counted failed
  obtain ⟨here, atEnd⟩ := exists_unitPlace_of_stop moves
  by_cases literal : fault = .openString
  · have position : (stop.errorOf o fault).position =
        stop.cursor.point.advanceOver o.effectiveTabWidth stop.cursor.rest := if_pos literal
    rwa [position]
  · have position : (stop.errorOf o fault).position = stop.cursor.point := if_neg literal
    rwa [position]

/-- A lexer stands at a place of its text, in whatever way it was asked. -/
theorem exists_unitPlace_of_askAll (told : Diagnostics) (requests : List Request) :
    ∃ offset ≤ text.length, ((Lexer.start o unit text told).askAll requests).2.position =
      unitPlace o unit text offset := by
  have reached := Lexer.after_askAll (Lexer.awaits_start o unit text told) requests
  split at reached
  next =>
    obtain ⟨read, reads⟩ := (Lexer.Reads.start o unit text told).askAll requests
    obtain ⟨others, stop, pieces, moves, same⟩ := reads.moves reached.not_failed
    refine ⟨(Piece.text read).length, moves.length_le, ?_⟩
    rw [Lexer.position, ← same]
    exact point_eq_unitPlace pieces moves
  next =>
    obtain ⟨stop, tokens, moves, -, ends⟩ := Scanner.run_spec o (Scanner.start unit text.toList)
    obtain ⟨here, atEnd⟩ := exists_unitPlace_of_stop moves
    have position : ((Lexer.start o unit text told).askAll requests).2.position =
        ((Scanner.start unit text.toList).run o).last.cursor.point := by
      rw [reached]
      rfl
    rw [position]
    rcases ends.cursor_eq with same | passed
    · rwa [same]
    · rwa [passed]

/-- A token that was handed out starts and ends at places of the unit. -/
theorem exists_unitPlace_of_handed {told : Diagnostics} {requests : List Request} {token : Token}
    {span : Span}
    (handed : token ∈ Lexer.handedOut ((Lexer.start o unit text told).askAll requests).1)
    (spanned : token.span = some span) :
    (∃ offset ≤ text.length, span.start = unitPlace o unit text offset) ∧
      ∃ offset ≤ text.length, span.stop = unitPlace o unit text offset := by
  rw [Lexer.handedOut_askAll (Lexer.awaits_start o unit text told)] at handed
  obtain ⟨before, behind, stands⟩ := List.append_of_mem (List.mem_of_mem_take handed)
  obtain ⟨read, p, others, pieces, own, -⟩ := piece_of_token stands (by simp [spanned])
  obtain ⟨⟨rest, inside⟩, place⟩ := span_of_piece pieces own
  obtain rfl := Option.some.inj (spanned.symm.trans place)
  have size := congrArg List.length inside
  rw [String.length_toList, List.length_append] at size
  refine ⟨⟨_, ?_, rfl⟩, _, ?_, rfl⟩
  · rw [List.length_append] at size
    omega
  · omega

/-- What is told is placed in the text. -/
theorem exists_unitPlace_of_told {requests : List Request} {d : Diagnostic}
    (told : d ∈ ((Lexer.start o unit text .empty).askAll requests).2.told.toList)
    (placed : d.position = some p) : ∃ offset ≤ text.length, p = unitPlace o unit text offset := by
  have reached := Lexer.after_askAll (Lexer.awaits_start o unit text .empty) requests
  split at reached
  next =>
    rw [reached.told] at told
    simp [Diagnostics.empty] at told
  next =>
    rw [reached, Lexer.closed] at told
    cases ended : ((Scanner.start unit text.toList).run o).ending with
    | finished => simp [ended, Ending.tell, Diagnostics.empty] at told
    | failed e =>
      obtain rfl : d = .reported e.text e.position := by
        simpa [ended, Ending.tell, Diagnostics.report, Diagnostics.add, Diagnostics.empty]
          using told
      obtain rfl : e.position = p := by simpa [Diagnostic.reported] using placed
      exact exists_unitPlace_of_failed ended

/-- All positions that a lexer exposes are places of its text. -/
theorem Exposed.exists_unitPlace (exposed : Exposed o unit text p) :
    ∃ offset ≤ text.length, p = unitPlace o unit text offset := by
  cases exposed with
  | own requests => exact exists_unitPlace_of_askAll .empty requests
  | start handed spanned => exact (exists_unitPlace_of_handed handed spanned).1
  | stop handed spanned => exact (exists_unitPlace_of_handed handed spanned).2
  | error answer =>
    have awaits := Lexer.awaits_start o unit text .empty
    exact exists_unitPlace_of_failed (Lexer.error_of_mem_askAll awaits answer)
  | told told placed => exact exists_unitPlace_of_told told placed

/-- Which positions count from one. Every position that a lexer exposes is a place of its text with
a column of at least one. Its line is zero just if it is the line behind a linemarker that gives it
this number. So lines count from one in every unit without such a linemarker. -/
theorem exposed_numbers (exposed : Exposed o unit text p) :
    1 ≤ p.column.toNat ∧
    (∃ offset ≤ text.length, p = unitPlace o unit text offset ∧
      (p.line.toNat = 0 ↔ OnLineZero o unit text offset)) ∧
    ((∀ m ∈ unitMarks o unit text, 1 ≤ m.marker.line.toNat) → 1 ≤ p.line.toNat) := by
  obtain ⟨offset, inside, rfl⟩ := exposed.exists_unitPlace
  obtain ⟨counted, zero⟩ := unitPlace_spec o unit text offset
  have number : (unitPlace o unit text offset).line.toNat = 0 ↔ OnLineZero o unit text offset := by
    rw [← zero, ← UInt32.toNat_inj]
    rfl
  refine ⟨counted, ⟨offset, inside, rfl, number⟩, ?_⟩
  intro numbered
  rw [Nat.one_le_iff_ne_zero, Ne, number]
  rintro ⟨m, last, none, -⟩
  have passed := numbered m (List.mem_filter.1 (List.mem_of_getLast? last)).1
  rw [none] at passed
  simp at passed

/-- A line feed leads from the line that the linemarker numbers zero to line one. -/
theorem exposed_numbers_of_marked_text :
    Exposed .standard "a.dm" "# 0 \x22b.dm\x22\n\nx" ⟨"b.dm", 1, 2⟩ ∧
    ∃ offset ≤ "# 0 \x22b.dm\x22\n\nx".length,
      (⟨"b.dm", 1, 2⟩ : Position) = unitPlace .standard "a.dm" "# 0 \x22b.dm\x22\n\nx" offset ∧
      ¬ OnLineZero .standard "a.dm" "# 0 \x22b.dm\x22\n\nx" offset := by
  have place : ((Lexer.start .standard "a.dm" "# 0 \x22b.dm\x22\n\nx" .empty).askAll
      [.next, .next]).2.position = ⟨"b.dm", 1, 2⟩ := by decide +kernel
  have exposed : Exposed .standard "a.dm" "# 0 \x22b.dm\x22\n\nx" ⟨"b.dm", 1, 2⟩ :=
    place ▸ .own [.next, .next]
  obtain ⟨-, ⟨offset, inside, same, number⟩, -⟩ := exposed_numbers exposed
  refine ⟨exposed, offset, inside, same, ?_⟩
  rw [← number]
  decide

/-- A linemarker may number a line zero, and a token that stands there shows it. -/
theorem exposed_line_zero :
    ∃ p, Exposed .standard "a.dm" "# 0 \x22b.dm\x22\nx" p ∧
      ¬ (1 ≤ p.line.toNat ∧ 1 ≤ p.column.toNat) := by
  have handed : Lexer.handedOut ((Lexer.start .standard "a.dm" "# 0 \x22b.dm\x22\nx" .empty).askAll
      [.next]).1 = [⟨.ident, some "x", some ⟨⟨"b.dm", 0, 1⟩, ⟨"b.dm", 0, 2⟩⟩⟩] := by decide +kernel
  have exposed : Exposed .standard "a.dm" "# 0 \x22b.dm\x22\nx" ⟨"b.dm", 0, 1⟩ :=
    .start (handed ▸ List.mem_singleton.2 rfl) rfl
  exact ⟨_, exposed, by decide⟩

end DreamLexer
