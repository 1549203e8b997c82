import DreamLexer.Proofs.Pull
import DreamLexer.Proofs.Scan.LineStart
import Mathlib.Data.List.DropRight

/-!
# The indentation law

The depth of a line is the number of tabs before its first comment or token. `Layout.Follows` is the
invariant that ties the layout to the pieces read so far, and `indentation_law` says what the block
markers in the stream come to. The layout counts without a bound, but never beyond the tabs it has
read (`Moves.counters_le`), so counters of 32 bits are enough for any text shorter than their range.
-/

namespace DreamLexer

namespace Piece

/-- Whether a line of the text starts behind the piece. -/
def startsLine : Piece → Bool
  | .marker _ _ => true
  | .lexeme _ .lineBreak _ => true
  | _ => false

/-- The pieces behind the last line break or linemarker. -/
def currentLine (read : List Piece) : List Piece := read.rtakeWhile (!·.startsLine)

/-- The pieces of that line before its first comment or token that is no new line. -/
def indentation (read : List Piece) : List Piece := (currentLine read).takeWhile (!·.settles)

/-- The tabs in the text of the pieces. -/
def tabs (pieces : List Piece) : Nat := (text pieces).count '\t'

/-- The tabs that indent the last line with a comment or a token; zero if there is no such line. -/
def lastDepth (read : List Piece) : Nat := tabs (indentation (read.rdropWhile (!·.settles)))

/-- Whether the line that is being read has its depth settled. -/
def Settled (read : List Piece) : Prop := ∃ p ∈ currentLine read, p.settles

variable {read : List Piece} {p : Piece}

theorem tabs_append (first second : List Piece) :
    tabs (first ++ second) = tabs first + tabs second := by
  simp [tabs]

theorem tabs_le_length (pieces : List Piece) : tabs pieces ≤ (text pieces).length :=
  List.count_le_length

theorem tabs_le_of_isInfix {part whole : List Piece} (inside : part <:+: whole) :
    tabs part ≤ tabs whole := by
  obtain ⟨before, behind, rfl⟩ := inside
  rw [tabs_append, tabs_append]
  omega

theorem tabs_currentLine_le (read : List Piece) : tabs (currentLine read) ≤ tabs read :=
  tabs_le_of_isInfix (List.rtakeWhile_suffix _ read).isInfix

theorem lastDepth_le (read : List Piece) : lastDepth read ≤ tabs read := by
  have line : tabs (indentation (read.rdropWhile (!·.settles))) ≤
      tabs (currentLine (read.rdropWhile (!·.settles))) :=
    tabs_le_of_isInfix (List.takeWhile_prefix _).isInfix
  have before : tabs (read.rdropWhile (!·.settles)) ≤ tabs read :=
    tabs_le_of_isInfix (List.rdropWhile_prefix _ read).isInfix
  exact line.trans ((tabs_currentLine_le _).trans before)

theorem currentLine_of_startsLine (h : p.startsLine) : currentLine (read ++ [p]) = [] := by
  rw [currentLine, List.rtakeWhile_concat_neg]
  simpa using h

theorem currentLine_concat (h : ¬ p.startsLine) :
    currentLine (read ++ [p]) = currentLine read ++ [p] := by
  rw [currentLine, List.rtakeWhile_concat_pos]
  · rfl
  · simpa using h

theorem indentation_of_not_settled (h : ¬ Settled read) : indentation read = currentLine read := by
  rw [indentation, List.takeWhile_eq_self_iff]
  intro p member
  by_contra settles
  exact h ⟨p, member, by simpa using settles⟩

theorem not_startsLine_of_settles (h : p.settles) : ¬ p.startsLine := by
  cases p with
  | marker raw m => simp [settles] at h
  | blanks raw => simp [startsLine]
  | lexeme raw found span => cases found <;> simp_all [settles, startsLine, Lexeme.settles]

/-- A settling piece ends the indentation, if none did before. -/
theorem indentation_concat_of_settles (h : p.settles) :
    indentation (read ++ [p]) = indentation read := by
  rw [indentation, currentLine_concat (not_startsLine_of_settles h), List.takeWhile_append]
  split
  next whole =>
    have all : (currentLine read).takeWhile (!·.settles) = currentLine read :=
      (List.takeWhile_prefix _).eq_of_length whole
    simp [indentation, all, h]
  next => rfl

/-- Once settled, a line keeps its indentation. -/
theorem indentation_concat_of_settled (settled : Settled read) (h : ¬ p.startsLine) :
    indentation (read ++ [p]) = indentation read := by
  rw [indentation, currentLine_concat h, List.takeWhile_append]
  split
  next whole =>
    obtain ⟨q, member, settles⟩ := settled
    have all : (currentLine read).takeWhile (!·.settles) = currentLine read :=
      (List.takeWhile_prefix _).eq_of_length whole
    rw [List.takeWhile_eq_self_iff] at all
    simpa [settles] using all q member
  next => rfl

theorem settled_concat (h : ¬ p.startsLine) : Settled (read ++ [p]) ↔ Settled read ∨ p.settles := by
  unfold Settled
  rw [currentLine_concat h]
  simp only [List.mem_append, List.mem_singleton, or_and_right, exists_or, exists_eq_left]

theorem not_settled_of_startsLine (h : p.startsLine) : ¬ Settled (read ++ [p]) := by
  intro known
  rcases known with ⟨q, member, -⟩
  rw [currentLine_of_startsLine h] at member
  simp at member

theorem lastDepth_of_settles (h : p.settles) :
    lastDepth (read ++ [p]) = tabs (indentation read) := by
  rw [lastDepth, List.rdropWhile_concat_neg _ _ _ (by simpa using h),
    indentation_concat_of_settles h]

theorem lastDepth_of_not_settles (h : ¬ p.settles) : lastDepth (read ++ [p]) = lastDepth read := by
  rw [lastDepth, List.rdropWhile_concat_pos _ _ _ (by simpa using h), lastDepth]

end Piece

open Piece in
/-- The layout knows the tabs of the line that is being read, and the depth of the last one. -/
structure Layout.Follows (read : List Piece) (l : Layout) : Prop where
  unsettled : ¬ Settled read → l.indent = some (tabs (currentLine read))
  settled : Settled read → l.indent = none
  depth : l.depth = lastDepth read
  depth_of_settled : Settled read → l.depth = tabs (indentation read)

namespace Layout.Follows

variable {o : Options} {read : List Piece} {p : Piece} {l next : Layout}

theorem start : Layout.start.Follows [] where
  unsettled _ := rfl
  settled h := by simp [Piece.Settled, Piece.currentLine] at h
  depth := rfl
  depth_of_settled h := by simp [Piece.Settled, Piece.currentLine] at h

/-- The layout counts tabs that were read, so it has counted no more than these. -/
theorem counters_le (h : l.Follows read) :
    l.depth ≤ Piece.tabs read ∧ ∀ tabs ∈ l.indent, tabs ≤ Piece.tabs read := by
  refine ⟨h.depth ▸ Piece.lastDepth_le read, ?_⟩
  intro tabs counted
  by_cases settled : Piece.Settled read
  · rw [h.settled settled] at counted
    cases counted
  · rw [h.unsettled settled] at counted
    obtain rfl := Option.some.inj counted
    exact Piece.tabs_currentLine_le read

/-- A new line starts unindented. -/
theorem startsLine (h : l.Follows read) (starts : p.startsLine) (indent : next.indent = some 0)
    (depth : next.depth = l.depth) : next.Follows (read ++ [p]) := by
  have unsettled : ¬ Piece.Settled (read ++ [p]) := Piece.not_settled_of_startsLine starts
  have silent : ¬ p.settles := fun settles => Piece.not_startsLine_of_settles settles starts
  refine ⟨?_, fun settled => absurd settled unsettled, ?_, fun settled => absurd settled unsettled⟩
  · intro _
    rw [indent, Piece.currentLine_of_startsLine starts]
    rfl
  · rw [depth, h.depth, Piece.lastDepth_of_not_settles silent]

/-- A piece that neither starts a line nor settles it adds its tabs. -/
theorem passed (h : l.Follows read) (starts : ¬ p.startsLine) (silent : ¬ p.settles)
    (indent : next.indent = l.indent.map (· + Piece.tabs [p])) (depth : next.depth = l.depth) :
    next.Follows (read ++ [p]) := by
  have same : Piece.Settled (read ++ [p]) ↔ Piece.Settled read := by
    rw [Piece.settled_concat starts]
    simp [silent]
  refine ⟨?_, ?_, ?_, ?_⟩
  · intro unsettled
    rw [indent, h.unsettled (mt same.2 unsettled), Piece.currentLine_concat starts,
      Piece.tabs_append]
    rfl
  · intro settled
    rw [indent, h.settled (same.1 settled)]
    rfl
  · rw [depth, h.depth, Piece.lastDepth_of_not_settles silent]
  · intro settled
    rw [depth, h.depth_of_settled (same.1 settled),
      Piece.indentation_concat_of_settled (same.1 settled) starts]

/-- Settling its depth, the line takes over its tabs. -/
theorem depth_settle (h : l.Follows read) :
    l.settle.2.depth = Piece.tabs (Piece.indentation read) := by
  by_cases settled : Piece.Settled read
  · rw [settle, h.settled settled]
    exact h.depth_of_settled settled
  · rw [settle, h.unsettled settled, Piece.indentation_of_not_settled settled]

/-- A settling piece takes over the tabs of its line. -/
theorem settles (h : l.Follows read) (settles : p.settles) :
    (l.read o p).2.Follows (read ++ [p]) := by
  have starts := Piece.not_startsLine_of_settles settles
  have settled : Piece.Settled (read ++ [p]) := (Piece.settled_concat starts).2 (.inr settles)
  have depth : (l.read o p).2.depth = Piece.tabs (Piece.indentation read) := by
    rw [read_of_settles settles]
    exact h.depth_settle
  have indent : (l.read o p).2.indent = none := by
    rw [read_of_settles settles]
    exact indent_settle l
  refine ⟨fun unsettled => absurd settled unsettled, fun _ => indent, ?_, fun _ => ?_⟩
  · rw [depth, Piece.lastDepth_of_settles settles]
  · rw [depth, Piece.indentation_concat_of_settles settles]

end Layout.Follows

variable {o : Options} {s t : Scanner} {p : Piece} {read : List Piece}

/-- A move keeps the layout informed. -/
theorem Move.follows (move : Move o s p t) (steady : s.InStep (Piece.text read))
    (h : s.layout.Follows read) : t.layout.Follows (read ++ [p]) := by
  cases move with
  | @marker c l m stands parsed =>
    have starts : c.point.isLineStart := by
      simp only [Cursor.atDirective, Bool.and_eq_true] at stands
      exact stands.1
    -- A marker does not reset the indentation; in the first column there is none to reset.
    exact h.startsLine rfl (steady.unindented starts) rfl
  | blanks clear =>
    apply h.passed (by simp [Piece.startsLine]) (by simp [Piece.settles])
    · simp [Scanner.passBlanks, Layout.passTabs, Piece.tabs, Piece.raw]
    · rfl
  | @lexeme rest raw point l lexeme span spelled covers =>
    cases lexeme with
    | lineBreak =>
      obtain ⟨-, indent, depth⟩ := Layout.newline_spec o { l with indent := some 0 }
      exact h.startsLine rfl indent depth
    | separator =>
      obtain ⟨-, indent, depth⟩ := Layout.newline_spec o l
      obtain rfl : raw = [';'] := spelled
      apply h.passed (by simp [Piece.startsLine]) (by simp [Piece.settles, Lexeme.settles]) _ depth
      simp [indent, Piece.tabs, Piece.raw]
    | _ => exact h.settles rfl

/-- Moves keep the layout informed. -/
theorem Moves.follows {pieces : List Piece} (moves : Moves o s pieces t)
    (steady : s.InStep (Piece.text read)) (h : s.layout.Follows read) :
    t.layout.Follows (read ++ pieces) := by
  induction moves generalizing read with
  | refl => simpa using h
  | @head s t u p pieces move _ ih =>
    have behind : t.InStep (Piece.text (read ++ [p])) := by simpa using move.inStep steady
    simpa using ih behind (move.follows steady h)

/-- Wherever the scan of a unit stands, no counter of the layout is beyond the unit's length. Both
are led from one value to the next in steps of one, so that holds of the values in between as well. -/
theorem Moves.counters_le {unit : String} {text : List Char} {pieces : List Piece}
    (moves : Moves o (.start unit text) pieces s) :
    s.layout.depth ≤ text.length ∧ ∀ tabs ∈ s.layout.indent, tabs ≤ text.length := by
  have steady : (Scanner.start unit text).InStep (Piece.text []) := Scanner.inStep_start unit text
  have follows : s.layout.Follows pieces := moves.follows steady Layout.Follows.start
  have whole : text = Piece.text pieces ++ s.cursor.rest := moves.rest_eq
  have room : Piece.tabs pieces ≤ text.length := by
    rw [whole, List.length_append]
    exact (Piece.tabs_le_length pieces).trans (Nat.le_add_right _ _)
  obtain ⟨depth, indent⟩ := follows.counters_le
  exact ⟨depth.trans room, fun tabs counted => (indent tabs counted).trans room⟩

/-- Behind every part of a unit's pieces the layout knows what it has read. -/
theorem follows_unitPieces {unit text : String} {pieces : List Piece}
    (h : unitPieces o unit text = read ++ pieces) : (Layout.start.after o read).Follows read := by
  obtain ⟨stop, -, moves, -⟩ := Scanner.run_spec o (Scanner.start unit text.toList)
  rw [← unitPieces, h] at moves
  obtain ⟨t, before, -⟩ := moves.split
  have steady : (Scanner.start unit text.toList).InStep (Piece.text []) :=
    Scanner.inStep_start unit text.toList
  have follows := before.follows steady Layout.Follows.start
  rw [before.layout_eq] at follows
  simpa [Scanner.start] using follows

section

variable {unit text : String} {told : Diagnostics} {tokens : List Token}

theorem span_isSome_of_kind (h : (lexUnit o unit text told).1 = .ok tokens) {t : Token}
    (member : t ∈ tokens) (kind : t.kind ≠ .newline) (literal : ¬ t.isIndentation) :
    t.span.isSome := by
  obtain ⟨stop, -, -, rfl⟩ := moves_of_lexUnit h
  by_contra bare
  have marker : t = .newline ∨ t = .indentBegin ∨ t = .indentEnd := by
    rcases List.mem_append.1 member with read | last
    · exact Layout.kind_of_mem_tokens read bare
    · exact .inr (.inr (Layout.mem_finish last))
  rcases marker with rfl | rfl | rfl
  · exact kind rfl
  · exact literal rfl
  · exact literal rfl

/-- Before a token the markers come to the tabs of its line. -/
theorem balance_before_token (h : (lexUnit o unit text told).1 = .ok tokens)
    {before behind : List Token} {t : Token} (stands : tokens = before ++ t :: behind)
    (spanned : t.span.isSome) :
    ∃ read p others, unitPieces o unit text = read ++ p :: others ∧ p.token? o = some t ∧
      before.filter (·.span.isSome) = read.filterMap (·.token? o) ∧
      balance before = Piece.tabs (Piece.indentation read) := by
  obtain ⟨stop, -, -, rfl⟩ := moves_of_lexUnit h
  have absent : t ∉ (stop.layout.finish o).1 := by
    intro last
    rw [Layout.mem_finish last] at spanned
    simp [Token.indentEnd] at spanned
  obtain ⟨more, handed⟩ := within_of_not_mem absent stands
  obtain ⟨read, p, others, pieces, own, rfl⟩ := Layout.tokens_split spanned handed
  refine ⟨read, p, others, pieces, own, ?_, ?_⟩
  · rw [List.filter_append, Layout.filter_span_tokens, Layout.filter_span_settle, List.append_nil]
  · have reached := (Layout.start.after_spec (o := o) read).1
    have settled := (Layout.settle_spec (Layout.start.after o read)).1
    have tabs := (follows_unitPieces pieces).depth_settle
    have fresh : Layout.start.depth = 0 := rfl
    rw [balance_append]
    omega

/-- The markers never close more blocks than are open, and at the end the depth of the last line is
left, or nothing if the end closes the blocks. -/
theorem balance_tokens (h : (lexUnit o unit text told).1 = .ok tokens) :
    NeverNegative 0 tokens ∧
      balance tokens =
        if o.closeBlocksAtEof then 0 else (Piece.lastDepth (unitPieces o unit text) : Int) := by
  obtain ⟨stop, moves, -, rfl⟩ := moves_of_lexUnit h
  obtain ⟨reached, steady⟩ := Layout.start.after_spec (o := o) (unitPieces o unit text)
  have last : stop.layout = Layout.start.after o (unitPieces o unit text) := moves.layout_eq
  obtain ⟨ended, steady', depth⟩ := stop.layout.finish_spec o
  have all : unitPieces o unit text = unitPieces o unit text ++ [] := (List.append_nil _).symm
  have follows := (follows_unitPieces all).depth
  have fresh : Layout.start.depth = 0 := rfl
  rw [fresh] at reached steady
  rw [last] at ended steady' depth ⊢
  refine ⟨neverNegative_append steady reached steady', ?_⟩
  rw [balance_append]
  split at depth
  next closes =>
    rw [if_pos closes]
    omega
  next stays =>
    rw [if_neg stays]
    omega

/-- The indentation law. The text falls into the pieces that the scan passes, and every token but
the new lines and the markers is the token of one. The markers before it come to the tabs between
the start of its line and the line's first comment or token. They never close more blocks than are
open, braces do not count, and at the end nothing is left open, or the depth of the last line that
had a comment or a token. In a text shorter than the range of 32 bits neither the depth nor the tabs
of a line leave that range. While tokens are pulled, in whatever way, the depth is the balance of
what was handed out and is queued. -/
theorem indentation_law (h : (lexUnit o unit text told).1 = .ok tokens) :
    (Piece.text (unitPieces o unit text) = text.toList ∧
      ∃ stop, Moves o (.start unit text.toList) (unitPieces o unit text) stop) ∧
    (∀ before t behind, tokens = before ++ t :: behind → t.kind ≠ .newline → ¬ t.isIndentation →
      ∃ read p others, unitPieces o unit text = read ++ p :: others ∧ p.token? o = some t ∧
        before.filter (·.span.isSome) = read.filterMap (·.token? o) ∧
        balance before = Piece.tabs (Piece.indentation read)) ∧
    (∀ before, before <+: tokens → 0 ≤ balance before) ∧
    (∀ before t, t.span.isSome → balance (before ++ [t]) = balance before) ∧
    (balance tokens =
      if o.closeBlocksAtEof then 0 else (Piece.lastDepth (unitPieces o unit text) : Int)) ∧
    (text.length < UInt32.size → ∀ pieces s, Moves o (.start unit text.toList) pieces s →
      s.layout.depth < UInt32.size ∧ ∀ tabs ∈ s.layout.indent, tabs < UInt32.size) ∧
    ∀ requests,
      (((Lexer.start o unit text told).askAll requests).2.depth : Int) =
        balance (Lexer.handedOut ((Lexer.start o unit text told).askAll requests).1 ++
          ((Lexer.start o unit text told).askAll requests).2.queue) := by
  obtain ⟨steady, whole⟩ := balance_tokens h
  obtain ⟨stop, moves, -⟩ := moves_of_lexUnit h
  refine ⟨⟨text_unitPieces h, stop, moves⟩, ?_, ?_, ?_, whole, ?_,
    Lexer.depth_askAll o unit text told⟩
  · intro before t behind stands kind literal
    have member : t ∈ tokens := by simp [stands]
    exact balance_before_token h stands (span_isSome_of_kind h member kind literal)
  · intro before starts
    simpa using steady before starts
  · intro before t spanned
    rw [balance_append, balance_singleton_of_span spanned, Int.add_zero]
  · intro short pieces s moves
    obtain ⟨depth, indent⟩ := moves.counters_le
    rw [String.length_toList] at depth indent
    exact ⟨depth.trans_lt short, fun tabs counted => (indent tabs counted).trans_lt short⟩

/-- The text leaves a block open, and the brace inside it closes nothing. -/
theorem indentation_law_of_open_block :
    ∃ tokens,
      (lexUnit { Options.standard with closeBlocksAtEof := false } "a.dm" "a\n\t\x7d" .empty).1 =
        .ok tokens ∧
      balance tokens = Piece.lastDepth
        (unitPieces { Options.standard with closeBlocksAtEof := false } "a.dm" "a\n\t\x7d") := by
  have lexed :
      (lexUnit { Options.standard with closeBlocksAtEof := false } "a.dm" "a\n\t\x7d" .empty).1 =
        .ok [⟨.ident, some "a", some ⟨⟨"a.dm", 1, 1⟩, ⟨"a.dm", 1, 2⟩⟩⟩, .newline, .indentBegin,
          ⟨.blockEnd, none, some ⟨⟨"a.dm", 2, 9⟩, ⟨"a.dm", 2, 10⟩⟩⟩] := by decide +kernel
  obtain ⟨-, -, -, -, whole, -⟩ := indentation_law lexed
  exact ⟨_, lexed, whole⟩

end

end DreamLexer
