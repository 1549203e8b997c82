import DreamLexer.Lexer.Linemarker

/-!
# Cursors

A cursor is the text not read yet and the position of its first character. Passing text moves the
position over it; a linemarker at the start of a line moves the position to where it points.
-/

namespace DreamLexer

/-- The text not read yet and its position. -/
structure Cursor where
  rest : List Char
  point : Position
deriving DecidableEq

namespace Cursor

/-- The start of a unit. -/
def start (unit : String) (text : List Char) : Cursor := ⟨text, .startOf unit⟩

/-- Passes `taken`, behind which `rest` is left. -/
def pass (tabWidth : UInt32) (c : Cursor) (taken rest : List Char) : Cursor :=
  ⟨rest, c.point.advanceOver tabWidth taken⟩

/-- The rest of the line, without its line feed. -/
def line (c : Cursor) : List Char := c.rest.takeWhile (· != '\n')

/-- The text of the lines behind this one. -/
def linesBehind (c : Cursor) : List Char := (c.rest.dropWhile (· != '\n')).tail

/-- Whether a directive stands here. -/
def atDirective (c : Cursor) : Bool := c.point.isLineStart && c.rest.head? == some '#'

theorem length_linesBehind_lt {c : Cursor} (h : c.atDirective) :
    c.linesBehind.length < c.rest.length := by
  simp only [atDirective, Bool.and_eq_true, beq_iff_eq] at h
  obtain ⟨rest, hr⟩ := List.head?_eq_some_iff.1 h.2
  have := Text.length_dropWhile_le (· != '\n') rest
  simp [linesBehind, hr]
  omega

/-- Passes the linemarkers that stand here. Fails with the cursor in front of a directive that is
no linemarker. -/
def followMarkers (c : Cursor) : Except Cursor Cursor :=
  if c.atDirective then
    match Linemarker.parse? c.line with
    | none => .error c
    | some marker => followMarkers ⟨c.linesBehind, ⟨marker.unit, marker.line, 1⟩⟩
  else .ok c
termination_by c.rest.length
decreasing_by
  rename_i h
  exact length_linesBehind_lt h

theorem length_followMarkers_le {c d : Cursor} (h : c.followMarkers = .ok d) :
    d.rest.length ≤ c.rest.length := by
  fun_induction followMarkers c with
  | case1 => simp at h
  | case2 c hd marker _ ih =>
    have := length_linesBehind_lt hd
    exact Nat.le_trans (ih h) (Nat.le_of_lt this)
  | case3 =>
    obtain rfl := by simpa using h
    exact Nat.le_refl _

end Cursor

end DreamLexer
