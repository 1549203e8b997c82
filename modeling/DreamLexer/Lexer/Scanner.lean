import DreamLexer.Lexer.Cursor
import DreamLexer.Lexer.Layout

/-!
# The scanner

One step of the scanner passes linemarkers and blanks and then reads one lexeme, whose tokens the
layout hands out. A step that does not end the scan leaves less text (`length_rest_lt_of_step`), so
a run over any text ends. `run_eq` is the equation a run obeys.
-/

namespace DreamLexer

/-- Where the scan stands. -/
structure Scanner where
  cursor : Cursor
  layout : Layout
deriving DecidableEq

/-- How a scan ends. -/
inductive Ending where
  | finished
  | failed (error : LexError)
deriving DecidableEq

/-- What one step does: it hands out tokens and goes on, or hands out the last ones and ends. -/
inductive Step where
  | placed (tokens : List Token) (next : Scanner)
  | ended (tokens : List Token) (ending : Ending) (last : Scanner)
deriving DecidableEq

namespace Scanner

/-- The scanner at the start of a unit. -/
def start (unit : String) (text : List Char) : Scanner := ⟨.start unit text, .start⟩

/-- Whether a character is passed over before a lexeme. A space is, unless it would stand in the
indentation. -/
def isPassed (inIndentation : Bool) (c : Char) : Bool :=
  c == '\t' || c == '\r' || (c == ' ' && !inIndentation)

/-- Passes the blanks before a lexeme. -/
def passBlanks (o : Options) (s : Scanner) : Scanner :=
  let blanks := s.cursor.rest.takeWhile (isPassed s.layout.inIndentation)
  let rest := s.cursor.rest.dropWhile (isPassed s.layout.inIndentation)
  ⟨s.cursor.pass o.effectiveTabWidth blanks rest, s.layout.passTabs (blanks.count '\t')⟩

/-- Ends the scan at a fault. -/
def fail (o : Options) (s : Scanner) (fault : Fault) : Step :=
  let stop :=
    if fault.readsToEnd then s.cursor.pass o.effectiveTabWidth s.cursor.rest [] else s.cursor
  .ended [] (.failed (fault.error s.cursor.point stop.point)) { s with cursor := stop }

/-- Ends the scan at the end of the text. -/
def finish (o : Options) (s : Scanner) : Step :=
  let (tokens, layout) := s.layout.finish o
  .ended tokens .finished { s with layout := layout }

/-- Goes on behind a lexeme. -/
def place (o : Options) (s : Scanner) (r : Reading) : Step :=
  let next := s.cursor.pass o.effectiveTabWidth r.raw r.rest
  let (tokens, layout) := s.layout.place o r.lexeme ⟨s.cursor.point, next.point⟩
  .placed tokens ⟨next, layout⟩

/-- Reads the lexeme that stands here. -/
def readLexeme (o : Options) (s : Scanner) : Step :=
  match s.cursor.rest with
  | [] => s.finish o
  | c :: rest =>
    match Lexeme.read c rest with
    | .error fault => s.fail o fault
    | .ok r => s.place o r

/-- Passes linemarkers and blanks and reads a lexeme. -/
def step (o : Options) (s : Scanner) : Step :=
  match s.cursor.followMarkers with
  | .error stuck => fail o { s with cursor := stuck } (.directive stuck.line)
  | .ok cursor => readLexeme o (passBlanks o { s with cursor := cursor })

theorem length_passBlanks_le (o : Options) (s : Scanner) :
    (s.passBlanks o).cursor.rest.length ≤ s.cursor.rest.length :=
  Text.length_dropWhile_le _ _

theorem length_rest_lt_of_readLexeme {o : Options} {s next : Scanner} {tokens : List Token}
    (h : s.readLexeme o = .placed tokens next) :
    next.cursor.rest.length < s.cursor.rest.length := by
  unfold readLexeme at h
  split at h
  · simp [finish] at h
  next c rest hr =>
    split at h
    · simp [fail] at h
    next r hread =>
      obtain ⟨-, rfl⟩ := by simpa [place] using h
      simpa [Cursor.pass, hr] using Lexeme.length_rest_lt hread

/-- A step that goes on leaves less text. -/
theorem length_rest_lt_of_step {o : Options} {s next : Scanner} {tokens : List Token}
    (h : s.step o = .placed tokens next) : next.cursor.rest.length < s.cursor.rest.length := by
  unfold step at h
  split at h
  · simp [fail] at h
  next cursor hc =>
    have read := length_rest_lt_of_readLexeme h
    have blanks := length_passBlanks_le o { s with cursor := cursor }
    have marked := Cursor.length_followMarkers_le hc
    exact Nat.lt_of_lt_of_le read (Nat.le_trans blanks marked)

end Scanner

/-- What a scan to its end gives: all tokens, how it ended and where. -/
structure Run where
  tokens : List Token
  ending : Ending
  last : Scanner
deriving DecidableEq

namespace Scanner

/-- Runs to the end; `before` holds the tokens handed out so far. -/
def runFrom (o : Options) (before : Array Token) (s : Scanner) : Run :=
  match _h : s.step o with
  | .placed tokens next => runFrom o (before ++ tokens) next
  | .ended tokens ending last => ⟨(before ++ tokens).toList, ending, last⟩
termination_by s.cursor.rest.length
decreasing_by exact length_rest_lt_of_step _h

/-- Runs to the end. -/
def run (o : Options) (s : Scanner) : Run := runFrom o #[] s

theorem runFrom_of_placed {o : Options} {s next : Scanner} {tokens : List Token}
    (h : s.step o = .placed tokens next) (before : Array Token) :
    runFrom o before s = runFrom o (before ++ tokens) next := by
  rw [runFrom]
  split
  next h' =>
    obtain ⟨rfl, rfl⟩ := by simpa using h.symm.trans h'
    rfl
  next h' => simp [h] at h'

theorem runFrom_of_ended {o : Options} {s last : Scanner} {tokens : List Token} {ending : Ending}
    (h : s.step o = .ended tokens ending last) (before : Array Token) :
    runFrom o before s = ⟨before.toList ++ tokens, ending, last⟩ := by
  rw [runFrom]
  split
  next h' => simp [h] at h'
  next h' =>
    obtain ⟨rfl, rfl, rfl⟩ := by simpa using h.symm.trans h'
    simp

theorem runFrom_append (o : Options) (before first : Array Token) (s : Scanner) :
    runFrom o (before ++ first) s =
      { runFrom o first s with tokens := before.toList ++ (runFrom o first s).tokens } := by
  fun_induction runFrom o first s with
  | case1 first s tokens next h ih =>
    have assoc : before ++ first ++ tokens = before ++ (first ++ tokens) := by
      apply Array.ext'
      simp
    rw [runFrom_of_placed h, assoc, ih]
  | case2 first s tokens ending last h => simp [runFrom_of_ended h]

theorem runFrom_eq (o : Options) (before : Array Token) (s : Scanner) :
    runFrom o before s = { run o s with tokens := before.toList ++ (run o s).tokens } := by
  simpa [run] using runFrom_append o before #[] s

/-- A run is its first step and the run behind it. -/
theorem run_eq (o : Options) (s : Scanner) :
    run o s =
      match s.step o with
      | .placed tokens next => { run o next with tokens := tokens ++ (run o next).tokens }
      | .ended tokens ending last => ⟨tokens, ending, last⟩ := by
  cases h : s.step o with
  | placed tokens next =>
    rw [run, runFrom_of_placed h, runFrom_eq]
    simp
  | ended tokens ending last =>
    rw [run, runFrom_of_ended h]
    simp

end Scanner

end DreamLexer
