import DreamLexer.Source.Position
import Mathlib.Data.List.DropRight

/-!
# Where a text ends

A position is moved on one character after the other, and every sum on the way may stop at the
largest counter. A counter that stopped stays where it is until the next line feed, so it makes no
difference where that was (`min_counterMax_add`): `toNat_line_advanceOver` and
`toNat_column_advanceOver` give line and column behind a text from the text alone.
`advanceOver_closed_form` puts them together.
-/

namespace DreamLexer

namespace Text

/-- The text behind its last line feed; all of it if it has none. -/
def lastLine (text : List Char) : List Char := text.rtakeWhile (· != '\n')

/-- The columns that the characters of a line take up: one for each, but a tab takes `tabWidth`. -/
def columns (tabWidth : UInt32) (line : List Char) : Nat :=
  line.countP (· != '\t') + tabWidth.toNat * line.count '\t'

variable {tabWidth : UInt32} {text line : List Char}

theorem lastLine_of_not_mem (within : '\n' ∉ line) : lastLine line = line := by
  rw [lastLine, List.rtakeWhile_eq_self_iff]
  intro c member
  exact bne_iff_ne.2 (ne_of_mem_of_not_mem member within)

theorem lastLine_append (before : List Char) (within : '\n' ∉ line) :
    lastLine (before ++ '\n' :: line) = line := by
  have inside : ∀ c ∈ line.reverse, (c != '\n') = true := fun c member =>
    bne_iff_ne.2 (ne_of_mem_of_not_mem (List.mem_reverse.1 member) within)
  rw [lastLine, List.rtakeWhile, List.reverse_append, List.reverse_cons, List.append_assoc,
    List.takeWhile_append_of_pos inside]
  simp

/-- A text with a line feed can be cut at the last one. -/
theorem exists_lastLine (ended : '\n' ∈ text) :
    ∃ before line, text = before ++ '\n' :: line ∧ '\n' ∉ line := by
  obtain ⟨line, before, cut, within⟩ := List.eq_append_cons_of_mem (List.mem_reverse.2 ended)
  refine ⟨before.reverse, line.reverse, ?_, mt List.mem_reverse.1 within⟩
  rw [← List.reverse_reverse text, cut]
  simp

@[simp] theorem columns_nil : columns tabWidth [] = 0 := rfl

theorem columns_cons (c : Char) :
    columns tabWidth (c :: line) =
      (if c = '\t' then tabWidth.toNat else 1) + columns tabWidth line := by
  unfold columns
  by_cases tab : c = '\t'
  · have others : (c :: line).countP (· != '\t') = line.countP (· != '\t') :=
      List.countP_cons_of_neg (by simp [tab])
    have tabs : (c :: line).count '\t' = line.count '\t' + 1 := by
      rw [tab, List.count_cons_self]
    rw [others, tabs, if_pos tab, Nat.mul_add, Nat.mul_one]
    omega
  · have others : (c :: line).countP (· != '\t') = line.countP (· != '\t') + 1 :=
      List.countP_cons_of_pos (by simp [tab])
    rw [others, List.count_cons_of_ne tab, if_neg tab]
    omega

end Text

theorem toNat_le_counterMax (counter : UInt32) : counter.toNat ≤ counterMax :=
  Nat.le_of_lt_succ counter.toNat_lt

/-- A sum that is added to comes to the same, whether or not it stopped before. -/
theorem min_counterMax_add (counter first second : Nat) :
    min counterMax (min counterMax (counter + first) + second) =
      min counterMax (counter + (first + second)) := by
  omega

namespace Position

variable {tabWidth : UInt32} {p : Position} {c : Char} {text : List Char}

theorem unit_advance (c : Char) : (p.advance tabWidth c).unit = p.unit := by
  unfold advance
  split
  · rfl
  · split <;> rfl

theorem toNat_line_advance (c : Char) :
    (p.advance tabWidth c).line.toNat =
      min counterMax (p.line.toNat + if c = '\n' then 1 else 0) := by
  have fits := toNat_le_counterMax p.line
  unfold advance
  by_cases newline : c = '\n'
  · rw [if_pos newline, if_pos newline]
    exact toNat_countUp p.line 1
  · rw [if_neg newline, if_neg newline, Nat.add_zero, Nat.min_eq_right fits]
    split <;> rfl

theorem toNat_column_advance (within : c ≠ '\n') :
    (p.advance tabWidth c).column.toNat =
      min counterMax (p.column.toNat + if c = '\t' then tabWidth.toNat else 1) := by
  unfold advance
  rw [if_neg within]
  by_cases tab : c = '\t'
  · rw [if_pos tab, if_pos tab]
    exact toNat_countUp p.column tabWidth
  · rw [if_neg tab, if_neg tab]
    exact toNat_countUp p.column 1

theorem unit_advanceOver (p : Position) (text : List Char) :
    (p.advanceOver tabWidth text).unit = p.unit := by
  induction text generalizing p with
  | nil => rfl
  | cons c text ih => rw [advanceOver_cons, ih, unit_advance]

/-- The line feeds of the text are added to the line. -/
theorem toNat_line_advanceOver (p : Position) (text : List Char) :
    (p.advanceOver tabWidth text).line.toNat =
      min counterMax (p.line.toNat + text.count '\n') := by
  induction text generalizing p with
  | nil => exact (Nat.min_eq_right (toNat_le_counterMax p.line)).symm
  | cons c text ih =>
    have counted : (c :: text).count '\n' = (if c = '\n' then 1 else 0) + text.count '\n' := by
      rw [List.count_cons, Nat.add_comm]
      simp only [beq_iff_eq]
    rw [advanceOver_cons, ih, toNat_line_advance, min_counterMax_add, counted]

/-- Within a line the columns of the text are added to the column. -/
theorem toNat_column_of_not_mem (within : '\n' ∉ text) :
    (p.advanceOver tabWidth text).column.toNat =
      min counterMax (p.column.toNat + Text.columns tabWidth text) := by
  induction text generalizing p with
  | nil => exact (Nat.min_eq_right (toNat_le_counterMax p.column)).symm
  | cons c text ih =>
    obtain ⟨here, behind⟩ := not_or.1 (mt List.mem_cons.2 within)
    rw [advanceOver_cons, ih behind, toNat_column_advance (Ne.symm here), min_counterMax_add,
      Text.columns_cons]

/-- The columns of the last line are added to where it starts. Whatever the column came to before
the last line feed, behind it is the first one. -/
theorem toNat_column_advanceOver (p : Position) (text : List Char) :
    (p.advanceOver tabWidth text).column.toNat =
      min counterMax ((if '\n' ∈ text then 1 else p.column.toNat) +
        Text.columns tabWidth (Text.lastLine text)) := by
  by_cases ended : '\n' ∈ text
  · rw [if_pos ended]
    obtain ⟨before, line, rfl, within⟩ := Text.exists_lastLine ended
    have first : ((p.advanceOver tabWidth before).advance tabWidth '\n').column.toNat = 1 := rfl
    rw [advanceOver_append, advanceOver_cons, toNat_column_of_not_mem within, first,
      Text.lastLine_append before within]
  · rw [if_neg ended, Text.lastLine_of_not_mem ended, toNat_column_of_not_mem ended]

theorem line_le_advanceOver (p : Position) (text : List Char) :
    p.line ≤ (p.advanceOver tabWidth text).line := by
  have fits := toNat_le_counterMax p.line
  rw [UInt32.le_iff_toNat_le, toNat_line_advanceOver]
  omega

theorem column_le_advanceOver (within : '\n' ∉ text) :
    p.column ≤ (p.advanceOver tabWidth text).column := by
  have fits := toNat_le_counterMax p.column
  rw [UInt32.le_iff_toNat_le, toNat_column_of_not_mem within]
  omega

/-- Where a text ends, for every start and every width of tabs. The unit is that of the start. The
line is moved on by the line feeds of the text, and the column by the columns of the last line,
which starts at one unless it is the line of the start; either stops at the largest counter. No
counter wraps on the way: a stretch of the text never leads to a smaller line, and within a line
never to a smaller column. -/
theorem advanceOver_closed_form (tabWidth : UInt32) (p : Position) (text : List Char) :
    (p.advanceOver tabWidth text).unit = p.unit ∧
    (p.advanceOver tabWidth text).line.toNat =
      min counterMax (p.line.toNat + text.count '\n') ∧
    (p.advanceOver tabWidth text).column.toNat =
      min counterMax ((if '\n' ∈ text then 1 else p.column.toNat) +
        Text.columns tabWidth (Text.lastLine text)) ∧
    ∀ before stretch, before ++ stretch <+: text →
      (p.advanceOver tabWidth before).line ≤ (p.advanceOver tabWidth (before ++ stretch)).line ∧
      ('\n' ∉ stretch → (p.advanceOver tabWidth before).column ≤
        (p.advanceOver tabWidth (before ++ stretch)).column) := by
  refine ⟨unit_advanceOver p text, toNat_line_advanceOver p text,
    toNat_column_advanceOver p text, ?_⟩
  intro before stretch _
  rw [advanceOver_append]
  exact ⟨line_le_advanceOver _ stretch, column_le_advanceOver⟩

/-- The column stops in front of the first line feed and the line behind it. The last line is
counted from its start all the same. -/
theorem advanceOver_closed_form_of_full_counters :
    [] ++ ['\t', 'a'] <+: ['\t', 'a', '\n', 'b', '\n', '\t', 'c'] ∧ '\n' ∉ ['\t', 'a'] ∧
    (advanceOver 3000000000 ⟨"a.dm", 4294967294, 4294967290⟩
      ['\t', 'a', '\n', 'b', '\n', '\t', 'c']).line.toNat = 4294967295 ∧
    (advanceOver 3000000000 ⟨"a.dm", 4294967294, 4294967290⟩
      ['\t', 'a', '\n', 'b', '\n', '\t', 'c']).column.toNat = 3000000002 ∧
    4294967290 ≤
      (advanceOver 3000000000 ⟨"a.dm", 4294967294, 4294967290⟩ ['\t', 'a']).column := by
  have front : [] ++ ['\t', 'a'] <+: ['\t', 'a', '\n', 'b', '\n', '\t', 'c'] := ⟨_, rfl⟩
  have within : '\n' ∉ ['\t', 'a'] := by decide
  obtain ⟨-, line, column, grows⟩ := advanceOver_closed_form 3000000000
    ⟨"a.dm", 4294967294, 4294967290⟩ ['\t', 'a', '\n', 'b', '\n', '\t', 'c']
  refine ⟨front, within, ?_, ?_, (grows [] ['\t', 'a'] front).2 within⟩
  · rw [line]
    decide
  · rw [column]
    decide

end Position

end DreamLexer
