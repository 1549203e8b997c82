/-!
# Positions and spans

A position is logical: it names the unit a character came from, the line and the column, and says
nothing about an offset. Lines and columns are 32-bit counters that stop at their largest value
instead of wrapping. `toNat_countUp` is the fact every later statement about positions rests on.
-/

namespace DreamLexer

/-- The largest value of a line or column counter. -/
def counterMax : Nat := 4294967295

/-- Adds to a counter; the sum stops at `counterMax`. -/
def countUp (counter amount : UInt32) : UInt32 :=
  UInt32.ofNat (min counterMax (counter.toNat + amount.toNat))

theorem toNat_countUp (counter amount : UInt32) :
    (countUp counter amount).toNat = min counterMax (counter.toNat + amount.toNat) := by
  unfold countUp
  rw [UInt32.toNat_ofNat']
  exact Nat.mod_eq_of_lt (by simp only [counterMax]; omega)

/-- A place in a unit. Lines and columns start at one. -/
structure Position where
  unit : String
  line : UInt32
  column : UInt32
deriving DecidableEq

namespace Position

/-- Columns a tab takes up unless a width is chosen. -/
def defaultTabWidth : UInt32 := 8

/-- The first column of the first line of a unit. -/
def startOf (unit : String) : Position := ⟨unit, 1, 1⟩

/-- Where the character after `c` stands, if `c` stands at `p` and a tab takes `tabWidth` columns. -/
def advance (tabWidth : UInt32) (p : Position) (c : Char) : Position :=
  if c = '\n' then { p with line := countUp p.line 1, column := 1 }
  else if c = '\t' then { p with column := countUp p.column tabWidth }
  else { p with column := countUp p.column 1 }

/-- Where the character after the text stands, if the text starts at `p`. -/
def advanceOver (tabWidth : UInt32) (p : Position) (text : List Char) : Position :=
  text.foldl (advance tabWidth) p

/-- Whether the position is in the first column. -/
def isLineStart (p : Position) : Bool := p.column == 1

/-- `unit:line:column`. -/
def display (p : Position) : String :=
  p.unit ++ ":" ++ toString p.line.toNat ++ ":" ++ toString p.column.toNat

@[simp] theorem advanceOver_nil (tabWidth : UInt32) (p : Position) :
    p.advanceOver tabWidth [] = p := rfl

@[simp] theorem advanceOver_cons (tabWidth : UInt32) (p : Position) (c : Char) (text : List Char) :
    p.advanceOver tabWidth (c :: text) = (p.advance tabWidth c).advanceOver tabWidth text := rfl

theorem advanceOver_append (tabWidth : UInt32) (p : Position) (first second : List Char) :
    p.advanceOver tabWidth (first ++ second) =
      (p.advanceOver tabWidth first).advanceOver tabWidth second := by
  simp [advanceOver]

end Position

/-- The half-open stretch of positions from `start` up to `stop`. -/
structure Span where
  start : Position
  stop : Position
deriving DecidableEq

namespace Span

/-- Whether the span covers no character. -/
def isEmpty (s : Span) : Bool := s.start == s.stop

/-- `[start, stop)`, the bracket showing that the end is not part of the span. -/
def display (s : Span) : String := "[" ++ s.start.display ++ ", " ++ s.stop.display ++ ")"

/-- `start..line:column`, with the unit written once. -/
def brief (s : Span) : String :=
  s.start.display ++ ".." ++ toString s.stop.line.toNat ++ ":" ++ toString s.stop.column.toNat

end Span

end DreamLexer
