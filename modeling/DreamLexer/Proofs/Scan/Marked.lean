import DreamLexer.Proofs.Scan.Append
import DreamLexer.Proofs.Scan.Parallel

/-!
# Linemarkers only move positions

A linemarker put in front of a line changes where the text behind it is said to come from, and
nothing else: `lexUnit_linemarker` compares a text with and without it. The positions behind it are
those of a lexer that starts over at the place that the linemarker names.
-/

namespace DreamLexer

/-- A lexer at the start of a text whose first character stands at `origin`. -/
def Lexer.startAt (o : Options) (origin : Position) (text : String) (told : Diagnostics) : Lexer :=
  ⟨o, ⟨⟨text.toList, origin⟩, .start⟩, [], none, told⟩

/-- The tokens of a text whose first character stands at `origin`, or the error that ended it, and
all that was told. -/
def lexFrom (o : Options) (origin : Position) (text : String) (told : Diagnostics) :
    Except LexError (List Token) × Diagnostics :=
  match (Lexer.startAt o origin text told).drain with
  | (_, some e, after) => (.error e, after.told)
  | (tokens, none, after) => (.ok tokens, after.told)

/-- A unit is a text that starts in its own first column. -/
theorem lexFrom_startOf (o : Options) (unit text : String) (told : Diagnostics) :
    lexFrom o (.startOf unit) text told = lexUnit o unit text told := rfl

theorem lexFrom_eq (o : Options) (origin : Position) (text : String) (told : Diagnostics) :
    lexFrom o origin text told =
      match ((⟨⟨text.toList, origin⟩, .start⟩ : Scanner).run o).ending with
      | .finished => (.ok ((⟨⟨text.toList, origin⟩, .start⟩ : Scanner).run o).tokens, told)
      | .failed e => (.error e, told.report e.text e.position) := by
  unfold lexFrom Lexer.drain Lexer.startAt
  cases ending : ((⟨⟨text.toList, origin⟩, .start⟩ : Scanner).run o).ending with
  | finished => simp [ending, Ending.error?, Ending.tell]
  | failed e => simp [ending, Ending.error?, Ending.tell]

variable {o : Options} {s s' stop : Scanner} {pieces : List Piece}

theorem Linemarker.head_of_parse? {line : List Char} {m : Linemarker}
    (parsed : Linemarker.parse? line = some m) : ∃ text, line = '#' :: text := by
  cases line with
  | nil => simp [parse?] at parsed
  | cons hash text =>
    by_cases sign : hash = '#'
    · exact ⟨text, by rw [sign]⟩
    · simp [parse?, sign] at parsed

/-- The tokens with a span that a run hands out are those of the pieces that it passes. -/
theorem Scanner.filter_span_run (o : Options) (s : Scanner) :
    (s.run o).tokens.filter (·.span.isSome) = (s.pieces o).filterMap (·.token? o) := by
  obtain ⟨stop, last, -, handed, ends⟩ := run_spec o s
  have bare : last.filter (·.span.isSome) = [] := by
    rw [List.filter_eq_nil_iff]
    intro t member
    rcases ends.layout_eq with finished | failed
    · obtain rfl : last = (stop.layout.finish o).1 := congrArg Prod.fst finished
      rw [Layout.mem_finish member]
      decide
    · obtain rfl : last = [] := congrArg Prod.fst failed
      simp at member
  rw [handed, List.filter_append, Layout.filter_span_tokens, bare, List.append_nil]

/-- A linemarker in front of a text is passed, and the text then starts at its place. -/
theorem Scanner.run_linemarker {line second : List Char} {m : Linemarker}
    (counted : s.cursor.point.Counted) (starts : s.cursor.point.isLineStart)
    (inside : '\n' ∉ line) (parsed : Linemarker.parse? line = some m) :
    (s.before (line ++ '\n' :: second)).run o =
      (⟨⟨second, ⟨m.unit, m.line, 1⟩⟩, s.layout⟩ : Scanner).run o := by
  have newline : Lexeme.NextIs (· = '\n') ('\n' :: second) := Lexeme.nextIs_cons.2 rfl
  obtain ⟨line_eq, -, behind_eq⟩ := Cursor.line_of_nextIs s.cursor.point inside newline
  have stands : (s.before (line ++ '\n' :: second)).cursor.atDirective := by
    obtain ⟨text, sign⟩ := Linemarker.head_of_parse? parsed
    exact Cursor.atDirective_iff.2 ⟨starts, text ++ '\n' :: second, by simp [before, sign]⟩
  have move := Move.marker (o := o) (l := s.layout) stands (line_eq.symm ▸ parsed)
  have run := move.run_eq counted
  rw [show Cursor.linesBehind (s.before (line ++ '\n' :: second)).cursor = second from behind_eq] at run
  exact run

/-- A linemarker that is put in front of a line, between two parts of a text of which the first one
lexes, only moves positions. The tokens of the first part are the same with and without it. Those of
the second part are of the same kinds, with the same payloads, and have a span or none alike; with
the linemarker the spans are those that the second part has on its own, started at the place that
the linemarker names. Or else the second part fails, on its own and in both texts, with the same
kind of error and the same message; with the linemarker the error is just that of the second part
on its own. -/
theorem lexUnit_linemarker {unit first line : String} {told : Diagnostics} {tokens : List Token}
    {m : Linemarker} (cut : first.toList = [] ∨ first.toList.getLast? = some '\n')
    (lexes : (lexUnit o unit first told).1 = .ok tokens) (inside : '\n' ∉ line.toList)
    (parsed : Linemarker.parse? line.toList = some m) (second : String) :
    ∃ before, lexUnit o.leaveOpen unit first told = (.ok before, told) ∧
      match (lexFrom o ⟨m.unit, m.line, 1⟩ second told).1 with
      | .ok alone => ∃ marked plain,
        lexUnit o unit (first ++ line ++ "\n" ++ second) told = (.ok (before ++ marked), told) ∧
        lexUnit o unit (first ++ second) told = (.ok (before ++ plain), told) ∧
        marked.map Token.outline = plain.map Token.outline ∧
        marked.filter (·.span.isSome) = alone.filter (·.span.isSome)
      | .error e => ∃ e',
        lexUnit o unit (first ++ line ++ "\n" ++ second) told =
          (.error e, told.report e.text e.position) ∧
        lexUnit o unit (first ++ second) told = (.error e', told.report e'.text e'.position) ∧
        e.SameMessage e' := by
  obtain ⟨stop, moves, done, -⟩ := moves_of_lexUnit lexes
  have counted : stop.cursor.point.Counted := moves.counted (Nat.le_refl 1)
  have whole : first.toList = Piece.text (unitPieces o unit first) := (text_unitPieces lexes).symm
  have starts : stop.AtLineStart :=
    moves.atLineStart (Scanner.inStep_start unit first.toList) ⟨rfl, rfl⟩ (whole ▸ cut)
  obtain ⟨-, run⟩ := run_append moves done cut (line.toList ++ '\n' :: second.toList)
  obtain ⟨-, run'⟩ := run_append moves done cut second.toList
  rw [Scanner.run_linemarker counted starts.first inside parsed] at run
  -- Behind the first part three scans go side by side over the second one: with the linemarker,
  -- without it, and from the start of a unit.
  have beside : Scanner.Parallel ⟨⟨second.toList, ⟨m.unit, m.line, 1⟩⟩, stop.layout⟩
      (stop.before second.toList) :=
    ⟨rfl, rfl, Nat.le_refl 1, counted, starts.first.symm⟩
  have anew : Scanner.Alike ⟨⟨second.toList, ⟨m.unit, m.line, 1⟩⟩, stop.layout⟩
      ⟨⟨second.toList, ⟨m.unit, m.line, 1⟩⟩, .start⟩ := ⟨rfl, starts.unindented⟩
  obtain ⟨outlines, endings⟩ := Scanner.run_parallel (o := o) beside
  obtain ⟨passed, ended⟩ := Scanner.run_alike (o := o) rfl anew
  have spans := Scanner.filter_span_run o ⟨⟨second.toList, ⟨m.unit, m.line, 1⟩⟩, stop.layout⟩
  rw [passed, ← Scanner.filter_span_run] at spans
  refine ⟨Layout.start.tokens o (unitPieces o unit first), ?_, ?_⟩
  · rw [lexUnit_eq, run_leaveOpen moves done]
  · have marked : (first ++ line ++ "\n" ++ second).toList =
        first.toList ++ (line.toList ++ '\n' :: second.toList) := by simp
    rw [lexFrom_eq, lexUnit_eq, lexUnit_eq, marked, String.toList_append, run, run', ← ended]
    -- Only how the runs over the second part end decides between the two outcomes.
    generalize Scanner.run o ⟨⟨second.toList, ⟨m.unit, m.line, 1⟩⟩, stop.layout⟩ = marked at *
    generalize Scanner.run o (stop.before second.toList) = plain at *
    obtain ⟨_, _, _⟩ := marked
    obtain ⟨_, _, _⟩ := plain
    cases endings with
    | finished =>
      refine ⟨_, _, rfl, rfl, ?_, spans⟩
      rw [← List.forall₂_eq_eq_eq, List.forall₂_map_left_iff, List.forall₂_map_right_iff]
      exact outlines
    | failed errors => exact ⟨_, rfl, rfl, errors⟩

/-- A linemarker between two lines of an open block. -/
theorem lexUnit_linemarker_of_block :
    ∃ tokens m, (lexUnit .standard "a.dm" "a\n\tb\n" .empty).1 = .ok tokens ∧
      Linemarker.parse? "# 7 \x22b.dm\x22 2".toList = some m ∧
      ∃ before alone marked plain,
        lexUnit Options.standard.leaveOpen "a.dm" "a\n\tb\n" .empty = (.ok before, .empty) ∧
        (lexFrom .standard ⟨m.unit, m.line, 1⟩ "\tc" .empty).1 = .ok alone ∧
        lexUnit .standard "a.dm" ("a\n\tb\n" ++ "# 7 \x22b.dm\x22 2" ++ "\n" ++ "\tc") .empty =
          (.ok (before ++ marked), .empty) ∧
        lexUnit .standard "a.dm" ("a\n\tb\n" ++ "\tc") .empty = (.ok (before ++ plain), .empty) ∧
        marked.map Token.outline = plain.map Token.outline ∧
        marked.filter (·.span.isSome) = alone.filter (·.span.isSome) := by
  have lexes : (lexUnit .standard "a.dm" "a\n\tb\n" .empty).1 =
      .ok [⟨.ident, some "a", some ⟨⟨"a.dm", 1, 1⟩, ⟨"a.dm", 1, 2⟩⟩⟩, .newline, .indentBegin,
        ⟨.ident, some "b", some ⟨⟨"a.dm", 2, 9⟩, ⟨"a.dm", 2, 10⟩⟩⟩, .newline, .indentEnd] := by
    decide +kernel
  have parsed : Linemarker.parse? "# 7 \x22b.dm\x22 2".toList = some ⟨7, "b.dm", [2]⟩ := by
    decide +kernel
  have alone : (lexFrom .standard ⟨"b.dm", 7, 1⟩ "\tc" .empty).1 =
      .ok [.indentBegin, ⟨.ident, some "c", some ⟨⟨"b.dm", 7, 9⟩, ⟨"b.dm", 7, 10⟩⟩⟩, .indentEnd] := by
    decide +kernel
  obtain ⟨before, first, behind⟩ :=
    lexUnit_linemarker (.inr (by decide)) lexes (by decide) parsed "\tc"
  rw [alone] at behind
  obtain ⟨marked, plain, both⟩ := behind
  exact ⟨_, _, lexes, parsed, before, _, marked, plain, first, alone, both⟩

end DreamLexer
