import DreamLexer.Proofs.Lexeme.Linemarker
import DreamLexer.Proofs.Lexeme.Unread
import DreamLexer.Proofs.Scan.Course

/-!
# What errors are made of

The message of an error is made of its template and of text that it quotes, and the unit of its
place is the one that is lexed or one that a linemarker names. So a character that no template has
and that stands neither in a text nor in the name of its unit does not stand in the error either:
`not_mem_error`.
-/

namespace DreamLexer

namespace Text

variable {mark : Char}

theorem mem_replaceAll {pattern replacement text : List Char}
    (member : mark ∈ replaceAll pattern replacement text) : mark ∈ replacement ∨ mark ∈ text := by
  fun_induction replaceAll pattern replacement text with
  | case1 => exact .inr member
  | case2 c rest starts ih =>
    rcases List.mem_append.1 member with inside | behind
    · exact .inl inside
    · exact (ih behind).imp_right fun later =>
        List.mem_cons_of_mem c (List.mem_of_mem_drop later)
  | case3 c rest starts ih =>
    rcases List.mem_cons.1 member with rfl | behind
    · exact .inr List.mem_cons_self
    · exact (ih behind).imp_right (List.mem_cons_of_mem c)

theorem mem_fillFrom {number : Nat} {arguments : List (List Char)} {text : List Char}
    (member : mark ∈ fillFrom number arguments text) :
    mark ∈ text ∨ ∃ argument ∈ arguments, mark ∈ argument := by
  induction arguments generalizing number text with
  | nil => exact .inl member
  | cons argument others ih =>
    rcases ih member with filled | ⟨other, among, inside⟩
    · rcases mem_replaceAll filled with inside | before
      · exact .inr ⟨argument, List.mem_cons_self, inside⟩
      · exact .inl before
    · exact .inr ⟨other, List.mem_cons_of_mem argument among, inside⟩

theorem mem_of_mem_trimEnd {text : List Char} (member : mark ∈ trimEnd text) : mark ∈ text := by
  obtain ⟨dropped, whole, -, -⟩ := trimEnd_eq_iff.1 (rfl : trimEnd text = _)
  rw [whole]
  exact List.mem_append_left dropped member

end Text

/-- A message is made of its template and its arguments. -/
theorem Message.mem_format {mark : Char} {message : Message} {arguments : List String}
    (member : mark ∈ (message.format arguments).toList) :
    mark ∈ message.template.toList ∨ ∃ argument ∈ arguments, mark ∈ argument.toList := by
  rw [format, String.toList_ofList] at member
  rcases Text.mem_fillFrom member with inside | ⟨argument, among, inside⟩
  · exact .inl inside
  · obtain ⟨text, given, rfl⟩ := List.mem_map.1 among
    exact .inr ⟨text, given, inside⟩

/-- The unit that a linemarker names stands in its line. -/
theorem Linemarker.mem_of_mem_unit {mark : Char} {line : List Char} {m : Linemarker}
    (parsed : parse? line = some m) (member : mark ∈ m.unit.toList) : mark ∈ line := by
  obtain ⟨s, rfl, rfl⟩ := exists_spelling parsed
  rw [Spelling.marker, String.toList_ofList] at member
  simp [Spelling.text, member]

/-- The character stands neither in the text that is left nor in the name of the unit. -/
structure Scanner.Without (mark : Char) (s : Scanner) : Prop where
  rest : mark ∉ s.cursor.rest
  unit : mark ∉ s.cursor.point.unit.toList

variable {o : Options} {mark : Char} {s t : Scanner} {p : Piece} {pieces : List Piece}
  {fault : Fault}

theorem Move.without (move : Move o s p t) (without : s.Without mark) : t.Without mark := by
  have rest : mark ∉ t.cursor.rest := by
    intro member
    apply without.rest
    rw [move.rest_eq]
    exact List.mem_append_right _ member
  refine ⟨rest, ?_⟩
  cases move with
  | marker stands parsed =>
    intro named
    exact without.rest ((List.takeWhile_sublist _).subset (Linemarker.mem_of_mem_unit parsed named))
  | blanks clear =>
    rw [Scanner.passBlanks, Cursor.pass, Position.unit_advanceOver]
    exact without.unit
  | lexeme spelled covers =>
    subst covers
    rw [Position.unit_advanceOver]
    exact without.unit

theorem Moves.without (moves : Moves o s pieces t) (without : s.Without mark) :
    t.Without mark := by
  induction moves with
  | refl => exact without
  | head move _ ih => exact ih (move.without without)

/-- A scan that is stuck quotes what it stands at. -/
theorem Scanner.Stuck.not_mem_arguments (stuck : s.Stuck fault) (without : s.Without mark) :
    ∀ argument ∈ fault.arguments, mark ∉ argument.toList := by
  cases stuck with
  | directive stands unparsed =>
    intro argument quoted member
    obtain rfl := List.mem_singleton.1 quoted
    rw [String.toList_ofList] at member
    exact without.rest ((List.takeWhile_sublist _).subset (Text.mem_of_mem_trimEnd member))
  | @lexeme c rest fault ready here unread =>
    cases Lexeme.unread_of_read unread with
    | space same => exact List.forall_mem_nil _
    | comment opens stays_open => exact List.forall_mem_nil _
    | literal opens stays_open => exact List.forall_mem_nil _
    | character newline space quoted part unspelled =>
      intro argument quoted member
      obtain rfl := List.mem_singleton.1 quoted
      obtain rfl : mark = c := by simpa using member
      exact without.rest (here ▸ List.mem_cons_self)

/-- The error of a unit has no character but those of the text, of the unit's name and of the
templates. -/
theorem not_mem_error {unit text : String} {told : Diagnostics} {e : LexError}
    (templates : ∀ kind : ErrorKind, mark ∉ kind.message.template.toList)
    (unnamed : mark ∉ unit.toList) (absent : mark ∉ text.toList)
    (failed : (lexUnit o unit text told).1 = .error e) :
    mark ∉ e.text.toList ∧ mark ∉ e.position.unit.toList := by
  have counted : (Scanner.start unit text.toList).cursor.point.Counted := Nat.le_refl 1
  obtain ⟨stop, fault, moves, stuck, rfl⟩ :=
    Scanner.run_failed counted (ending_of_lexUnit failed)
  have without : stop.Without mark := moves.without ⟨absent, unnamed⟩
  constructor
  · intro member
    rcases Message.mem_format member with inside | ⟨argument, quoted, inside⟩
    · exact templates fault.kind inside
    · exact stuck.not_mem_arguments without argument quoted inside
  · have same : (stop.errorOf o fault).position.unit = stop.cursor.point.unit := by
      rw [Scanner.errorOf, Fault.error, LexError.ofKind]
      split
      next => exact Position.unit_advanceOver _ _
      next => rfl
    rw [same]
    exact without.unit

end DreamLexer
