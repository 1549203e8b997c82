import DreamLexer.Proofs.Lexeme.Returns
import DreamLexer.Proofs.Scan.Seam
import DreamLexer.Proofs.Scan.Simulation

/-!
# Carriage returns do not matter

A text lexes as it does with a carriage return before every line feed, but for the carriage returns
inside comments and literals: `lexUnit_withReturns`. The two scans stand at the same place, except
that one of them may have passed the carriage return of a line feed that is still to come.
-/

namespace DreamLexer

open Text

/-- Tokens that are read at the same place and say the same, if carriage returns are left out. Only
the payloads of string literals and comments hold any. -/
structure Token.WithReturns (t t' : Token) : Prop where
  kind : t.kind = t'.kind
  starts : t.span.map Span.start = t'.span.map Span.start
  payload : t.payload.map (fun payload => dropReturns payload.toList) =
    t'.payload.map (fun payload => dropReturns payload.toList)
  returns : ∀ payload, t.payload = some payload ∨ t'.payload = some payload →
    '\r' ∈ payload.toList → t.kind ∈ [.doubleQuoted, .singleQuoted, .comment]

theorem Token.WithReturns.of_bare (t : Token) (bare : t.IsBare) : t.WithReturns t where
  kind := rfl
  starts := rfl
  payload := rfl
  returns := by simp [bare.payload]

variable {o : Options} {s s' t : Scanner} {p : Piece} {point : Position} {l : Layout}
  {text : List Char}

/-- A token with a payload that differs in carriage returns only. -/
theorem Token.WithReturns.of_texts {kind : TokenKind} {text text' : List Char} {span span' : Span}
    (starts : span.start = span'.start) (same : dropReturns text = dropReturns text')
    (clean : kind ∈ [.doubleQuoted, .singleQuoted, .comment] ∨ '\r' ∉ text ∧ '\r' ∉ text') :
    Token.WithReturns ⟨kind, some (String.ofList text), some span⟩
      ⟨kind, some (String.ofList text'), some span'⟩ where
  kind := rfl
  starts := congrArg some starts
  payload := by simpa using same
  returns := by
    intro payload holds member
    refine clean.resolve_right fun absent => ?_
    rcases holds with first | second
    · obtain rfl := Option.some.inj first
      exact absent.1 (by simpa using member)
    · obtain rfl := Option.some.inj second
      exact absent.2 (by simpa using member)

namespace Lexeme

theorem read_newline (rest : List Char) : read '\n' rest = .ok ⟨.lineBreak, ['\n'], rest⟩ := rfl

/-- Lexemes that differ in carriage returns only are treated alike. -/
theorem WithReturns.similar {lexeme lexeme' : Lexeme} {span span' : Span}
    (h : lexeme.WithReturns lexeme') (starts : span.start = span'.start) (raw raw' : List Char) :
    Piece.Similar Token.WithReturns o o (.lexeme raw lexeme span) (.lexeme raw' lexeme' span') := by
  cases h with
  | separator => exact .breaking rfl
  | comment same =>
    refine .settling rfl rfl ?_
    by_cases comments : o.emitComments
    · simpa [token?, comments] using Token.WithReturns.of_texts starts same (.inl (by decide))
    · simp [token?, comments]
  | word clean =>
    refine .settling rfl rfl ?_
    simpa [token?] using Token.WithReturns.of_texts starts rfl (.inr ⟨clean, clean⟩)
  | @literal quote _ _ same =>
    refine .settling rfl rfl ?_
    have quoted : quote.kind ∈ [.doubleQuoted, .singleQuoted, .comment] := by
      cases quote <;> decide
    simpa [token?] using Token.WithReturns.of_texts starts same (.inl quoted)
  | punctuation kind =>
    refine .settling rfl rfl ?_
    simpa [token?] using ⟨rfl, congrArg some starts, rfl, by simp⟩

end Lexeme

/-- Scanners that have passed the same of a text without and of one with carriage returns. -/
inductive Scanner.WithReturns : Scanner → Scanner → Prop where
  | here {text : List Char} {point : Position} {l : Layout} (clean : '\r' ∉ text)
      (counted : point.Counted) : WithReturns ⟨⟨text, point⟩, l⟩ ⟨⟨withReturns text, point⟩, l⟩
  /-- The second one is between a carriage return and its line feed. -/
  | within {text : List Char} {point point' : Position} {l : Layout} (clean : '\r' ∉ text)
      (counted : point.Counted) (counted' : point'.Counted) (line : point.line = point'.line)
      (unit : point.unit = point'.unit) :
      WithReturns ⟨⟨'\n' :: text, point⟩, l⟩ ⟨⟨'\n' :: withReturns text, point'⟩, l⟩

theorem Cursor.atDirective_withReturns (text : List Char) (point : Position) :
    Cursor.atDirective ⟨withReturns text, point⟩ = Cursor.atDirective ⟨text, point⟩ := by
  have head : ((withReturns text).head? == some '#') = (text.head? == some '#') := by
    cases text with
    | nil => rfl
    | cons c text =>
      by_cases newline : c = '\n'
      · subst newline
        rfl
      · rw [withReturns_cons text newline]
        rfl
  simp only [atDirective, head]

/-- The line may end with a carriage return, and the lines behind it are still to be read. -/
theorem Cursor.line_withReturns (text : List Char) (point : Position) :
    (Cursor.line ⟨withReturns text, point⟩ = Cursor.line ⟨text, point⟩ ∨
        Cursor.line ⟨withReturns text, point⟩ = Cursor.line ⟨text, point⟩ ++ ['\r']) ∧
      Cursor.linesBehind ⟨withReturns text, point⟩ =
        withReturns (Cursor.linesBehind ⟨text, point⟩) := by
  obtain ⟨line, inside, rfl | ⟨behind, rfl⟩⟩ := exists_line text
  · obtain ⟨-, -, behind_eq⟩ := line_of_nextIs point inside Lexeme.nextIs_nil
    rw [List.append_nil] at behind_eq
    rw [withReturns_of_not_mem inside, behind_eq]
    exact ⟨.inl rfl, rfl⟩
  · have newline (behind : List Char) : Lexeme.NextIs (· = '\n') ('\n' :: behind) :=
      Lexeme.nextIs_cons.2 rfl
    have inside' : '\n' ∉ line ++ ['\r'] := by simpa using inside
    obtain ⟨line_eq, -, behind_eq⟩ := line_of_nextIs point inside (newline behind)
    obtain ⟨line_eq', -, behind_eq'⟩ := line_of_nextIs point inside' (newline (withReturns behind))
    rw [withReturns_append, withReturns_of_not_mem inside, withReturns_newline,
      List.append_cons line, line_eq, line_eq', behind_eq, behind_eq']
    exact ⟨.inr rfl, rfl⟩

/-- A line is parsed as a linemarker with and without the carriage return at its end. -/
theorem Cursor.parse?_withReturns (clean : '\r' ∉ text) (point : Position) :
    Linemarker.parse? (Cursor.line ⟨withReturns text, point⟩) =
      Linemarker.parse? (Cursor.line ⟨text, point⟩) := by
  have clean_line : '\r' ∉ Cursor.line ⟨text, point⟩ :=
    fun member => clean ((List.takeWhile_sublist _).subset member)
  rcases (line_withReturns text point).1 with same | returned
  · rw [same]
  · rw [returned, Linemarker.parse?_return clean_line]

namespace Scanner.WithReturns

/-- The line of a linemarker may end with a carriage return. -/
theorem marker {c : Cursor} {m : Linemarker} (clean : '\r' ∉ c.rest) (stands : c.atDirective)
    (parsed : Linemarker.parse? c.line = some m) :
    ∃ raw t', Move o ⟨⟨withReturns c.rest, c.point⟩, l⟩ (.marker raw m) t' ∧
      WithReturns ⟨⟨c.linesBehind, ⟨m.unit, m.line, 1⟩⟩, l⟩ t' := by
  obtain ⟨text, point⟩ := c
  have stands' : Cursor.atDirective ⟨withReturns text, point⟩ :=
    (Cursor.atDirective_withReturns text point).trans stands
  have clean_behind : '\r' ∉ Cursor.linesBehind ⟨text, point⟩ :=
    fun member => not_mem_dropWhile clean _ (List.mem_of_mem_tail member)
  refine ⟨_, _, .marker stands' ((Cursor.parse?_withReturns clean point).trans parsed), ?_⟩
  rw [(Cursor.line_withReturns text point).2]
  exact .here clean_behind (Nat.le_refl 1)

/-- Blanks take in the carriage return of a line feed that is next. -/
theorem blanks (clean : '\r' ∉ text) (counted : point.Counted)
    (clear : Cursor.atDirective ⟨text, point⟩ = false) :
    ∃ raw t', Move o ⟨⟨withReturns text, point⟩, l⟩ (.blanks raw) t' ∧
      WithReturns (passBlanks o ⟨⟨text, point⟩, l⟩) t' := by
  have clear' : Cursor.atDirective ⟨withReturns text, point⟩ = false :=
    (Cursor.atDirective_withReturns text point).trans clear
  have clean_left : '\r' ∉ text.dropWhile (isPassed l.inIndentation) := not_mem_dropWhile clean _
  have counted_left : (point.advanceOver o.effectiveTabWidth
      (text.takeWhile (isPassed l.inIndentation))).Counted := Position.counted_advanceOver counted
  refine ⟨_, _, .blanks clear', ?_⟩
  have newline : isPassed l.inIndentation '\n' = false := by simp [isPassed]
  have returns : isPassed l.inIndentation '\r' = true := by simp [isPassed]
  rcases takeWhile_dropWhile_return newline returns text with
    ⟨taken, left⟩ | ⟨behind, newline, taken, left⟩
  · simp only [passBlanks, taken, left]
    exact .here clean_left counted_left
  · have tabs (blanks : List Char) : (blanks ++ ['\r']).count '\t' = blanks.count '\t' := by
      simp
    rw [newline] at clean_left
    simp only [passBlanks, taken, left, newline, tabs, Cursor.pass, Position.advanceOver_append]
    refine .within ?_ counted_left ?_ rfl rfl
    · exact List.not_mem_of_not_mem_cons clean_left
    · exact Position.counted_advanceOver counted_left

/-- A line feed leads to the same place from both sides of its carriage return. -/
theorem lineBreak {point' : Position} {span : Span} (clean : '\r' ∉ text)
    (counted : point.Counted) (line : point.line = point'.line) (unit : point.unit = point'.unit)
    (covers : span = ⟨point, point.advanceOver o.effectiveTabWidth ['\n']⟩) :
    ∃ span' t', Move o ⟨⟨'\n' :: withReturns text, point'⟩, l⟩ (.lexeme ['\n'] .lineBreak span') t' ∧
      WithReturns ⟨⟨text, span.stop⟩, (l.place o .lineBreak span).2⟩ t' := by
  have spelled : Lexeme.lineBreak.Spelled ['\n'] (withReturns text) := rfl
  have stop : point.advanceOver o.effectiveTabWidth ['\n'] =
      point'.advanceOver o.effectiveTabWidth ['\n'] := by
    simp [Position.advance, line, unit]
  subst covers
  refine ⟨_, _, .lexeme spelled rfl, ?_⟩
  rw [← stop]
  exact .here clean (Position.counted_advanceOver counted)

/-- The move over a lexeme that differs from another one in carriage returns only. -/
theorem answer {c : Char} {lexeme : Lexeme} {span : Span} {r : Reading} (raw : List Char)
    (read : Lexeme.read c text = .ok r) (same : lexeme.WithReturns r.lexeme)
    (starts : span.start = point) :
    ∃ p', Move o ⟨⟨c :: text, point⟩, l⟩ p'
        ⟨⟨r.rest, point.advanceOver o.effectiveTabWidth r.raw⟩, (l.place o lexeme span).2⟩ ∧
      (Piece.lexeme raw lexeme span).Similar Token.WithReturns o o p' := by
  obtain ⟨whole, spelled⟩ := Lexeme.read_eq_ok_iff.1 read
  have similar : (Piece.lexeme raw lexeme span).Similar Token.WithReturns o o
      (.lexeme r.raw r.lexeme ⟨point, point.advanceOver o.effectiveTabWidth r.raw⟩) :=
    same.similar starts raw r.raw
  have layout : (l.place o lexeme span).2 =
      (l.place o r.lexeme ⟨point, point.advanceOver o.effectiveTabWidth r.raw⟩).2 :=
    (Layout.read_similar similar .of_bare rfl l).2
  rw [← whole, layout]
  exact ⟨_, .lexeme spelled rfl, similar⟩

/-- A lexeme other than a line break is read from the same place. -/
theorem lexeme {raw rest : List Char} {lexeme : Lexeme} {span : Span} (clean : '\r' ∉ raw ++ rest)
    (counted : point.Counted) (spelled : lexeme.Spelled raw rest)
    (covers : span = ⟨point, point.advanceOver o.effectiveTabWidth raw⟩)
    (other : lexeme ≠ .lineBreak) :
    ∃ p' t', Move o ⟨⟨withReturns (raw ++ rest), point⟩, l⟩ p' t' ∧
      (Piece.lexeme raw lexeme span).Similar Token.WithReturns o o p' ∧
      WithReturns ⟨⟨rest, span.stop⟩, (l.place o lexeme span).2⟩ t' := by
  obtain ⟨c, others, rfl⟩ := List.exists_cons_of_ne_nil spelled.ne_nil
  have first : Lexeme.read c (others ++ rest) = .ok ⟨lexeme, c :: others, rest⟩ :=
    Lexeme.read_complete rfl spelled
  have newline : c ≠ '\n' := by
    intro same
    subst same
    rw [Lexeme.read_newline] at first
    cases first
    exact other rfl
  have counted_left : span.stop.Counted := by
    rw [covers]
    exact Position.counted_advanceOver counted
  have clean_left : '\r' ∉ rest := fun member => clean (List.mem_append_right _ member)
  have alike := Lexeme.read_alike (others ++ rest) newline
  generalize second : Lexeme.read c (withReturns (others ++ rest)) = result at alike
  rw [first] at alike
  rw [List.cons_append, withReturns_cons _ newline]
  cases alike with
  | whole _ _ same =>
    obtain ⟨p', move, similar⟩ := answer (o := o) (l := l) (c :: others) second same
      (congrArg Span.start covers)
    refine ⟨p', _, move, similar, ?_⟩
    have stop : span.stop = point.advanceOver o.effectiveTabWidth (withReturns (c :: others)) := by
      rw [covers, Position.advanceOver_withReturns]
    rw [← stop]
    exact .here clean_left counted_left
  | line raw behind same =>
    obtain ⟨p', move, similar⟩ := answer (o := o) (l := l) (c :: others) second same
      (congrArg Span.start covers)
    refine ⟨p', _, move, similar, ?_⟩
    have stop : point.advanceOver o.effectiveTabWidth (c :: others ++ ['\r']) =
        span.stop.advanceOver o.effectiveTabWidth ['\r'] := by
      rw [covers, Position.advanceOver_append]
    rw [stop]
    refine .within ?_ counted_left ?_ rfl rfl
    · exact List.not_mem_of_not_mem_cons clean_left
    · exact Position.counted_advanceOver counted_left

/-- Where one scan is stuck the other one is too, and both tell the same error. -/
theorem stuck {fault : Fault} (h : WithReturns s s') (stuck : s.Stuck fault) :
    ∃ fault', s'.Stuck fault' ∧ s.errorOf o fault = s'.errorOf o fault' := by
  cases stuck with
  | directive stands unparsed =>
    cases h with
    | within => simp [Cursor.atDirective] at stands
    | @here text point l clean counted =>
      refine ⟨_, .directive ((Cursor.atDirective_withReturns text point).trans stands)
        ((Cursor.parse?_withReturns clean point).trans unparsed), ?_⟩
      have arguments : trimEnd (Cursor.line ⟨withReturns text, point⟩) =
          trimEnd (Cursor.line ⟨text, point⟩) := by
        rcases (Cursor.line_withReturns text point).1 with same | returned
        · rw [same]
        · rw [returned, trimEnd_return]
      simp [errorOf, Fault.error, Fault.kind, Fault.arguments, arguments]
  | @lexeme c others fault ready here unread =>
    have newline : c ≠ '\n' := by
      intro same
      subst same
      simp [Lexeme.read_newline] at unread
    cases h with
    | within => exact absurd (List.cons.inj here).1.symm newline
    | @here text point l clean counted =>
      obtain rfl : text = c :: others := here
      have whole : withReturns (c :: others) = c :: withReturns others := withReturns_cons _ newline
      have alike := Lexeme.read_alike others newline
      generalize second : Lexeme.read c (withReturns others) = result at alike
      rw [unread] at alike
      cases alike
      have clear : Cursor.atDirective ⟨withReturns (c :: others), point⟩ = false :=
        (Cursor.atDirective_withReturns (c :: others) point).trans ready.clear
      have solid := Lexeme.nextIs_cons.1 ready.solid
      refine ⟨fault, .lexeme ⟨clear, ?_⟩ whole second, ?_⟩
      · rw [whole]
        exact Lexeme.nextIs_cons.2 solid
      · simp only [errorOf, Position.advanceOver_withReturns]

/-- The carriage return of a line feed is passed as a blank. -/
theorem passReturn (text : List Char) (point : Position) (l : Layout) :
    Move o ⟨⟨withReturns ('\n' :: text), point⟩, l⟩ (.blanks ['\r'])
      ⟨⟨'\n' :: withReturns text, point.advanceOver o.effectiveTabWidth ['\r']⟩, l⟩ := by
  have clear : Cursor.atDirective ⟨withReturns ('\n' :: text), point⟩ = false := by
    simp [Cursor.atDirective]
  have move := Move.blanks (o := o) (s := ⟨⟨withReturns ('\n' :: text), point⟩, l⟩) clear
  simpa [passBlanks, isPassed, Layout.passTabs, Cursor.pass] using move

/-- Passing the carriage return does not change the layout. -/
theorem tokens_return (l : Layout) (p : Piece) :
    l.tokens o [.blanks ['\r'], p] = (l.read o p).1 := by
  have unchanged : (l.read o (.blanks ['\r'])).2 = l := by simp [Layout.read, Layout.passTabs]
  rw [Layout.tokens_cons, Layout.tokens_singleton, unchanged]
  rfl

/-- A move of the first scan is answered by the second one, which passes the carriage return before
a line feed first. -/
theorem move (h : WithReturns s s') (move : Move o s p t) :
    ∃ answer t', Moves o s' answer t' ∧ WithReturns t t' ∧
      List.Forall₂ Token.WithReturns (s.layout.read o p).1 (s'.layout.tokens o answer) := by
  cases move with
  | @marker c l m stands parsed =>
    obtain ⟨text, point⟩ := c
    cases h with
    | within => simp [Cursor.atDirective] at stands
    | here clean counted =>
      obtain ⟨raw, t', move', related⟩ := marker (o := o) (l := l) clean stands parsed
      exact ⟨_, t', .single move', related, .nil⟩
  | blanks clear =>
    cases h with
    | @here text point l clean counted =>
      obtain ⟨raw, t', move', related⟩ := blanks (o := o) (l := l) clean counted clear
      exact ⟨_, t', .single move', related, .nil⟩
    | @within text point point' l clean counted counted' line unit =>
      have nothing : ('\n' :: text).takeWhile (isPassed l.inIndentation) = [] := by simp [isPassed]
      rw [passBlanks_of_takeWhile_eq_nil nothing]
      exact ⟨[], _, .refl _, .within clean counted counted' line unit, .nil⟩
  | @lexeme rest raw point l lexeme span spelled covers =>
    have breaking (raw raw' : List Char) (span span' : Span) :
        List.Forall₂ Token.WithReturns (l.read o (.lexeme raw .lineBreak span)).1
          (l.read o (.lexeme raw' .lineBreak span')).1 :=
      (Layout.read_similar (.breaking rfl) .of_bare rfl l).1
    generalize whole : raw ++ rest = text at h
    cases h with
    | here clean counted =>
      subst whole
      by_cases breaks : lexeme = .lineBreak
      · subst breaks
        obtain rfl : raw = ['\n'] := spelled
        have clean_rest : '\r' ∉ rest := fun member => clean (List.mem_append_right _ member)
        have line : point.line = (point.advanceOver o.effectiveTabWidth ['\r']).line := rfl
        have unit : point.unit = (point.advanceOver o.effectiveTabWidth ['\r']).unit := rfl
        obtain ⟨span', t', move', related⟩ :=
          lineBreak (o := o) (l := l) clean_rest counted line unit covers
        refine ⟨_, t', .head (passReturn rest point l) (.single move'), related, ?_⟩
        rw [tokens_return]
        exact breaking _ _ _ _
      · obtain ⟨p', t', move', similar, related⟩ :=
          Scanner.WithReturns.lexeme (l := l) clean counted spelled covers breaks
        refine ⟨_, t', .single move', related, ?_⟩
        rw [Layout.tokens_singleton]
        exact (Layout.read_similar similar .of_bare rfl l).1
    | within clean counted counted' line unit =>
      have first := Lexeme.read_complete whole spelled
      rw [Lexeme.read_newline] at first
      cases first
      obtain ⟨span', t', move', related⟩ := lineBreak (o := o) (l := l) clean counted line unit covers
      refine ⟨_, t', .single move', related, ?_⟩
      rw [Layout.tokens_singleton]
      exact breaking _ _ _ _

/-- Two scans, of a text without and of one with carriage returns. -/
theorem simulation (o : Options) : Simulation o o Token.WithReturns Eq WithReturns where
  counted h := by
    cases h with
    | here clean counted => exact ⟨counted, counted⟩
    | within clean counted counted' => exact ⟨counted, counted'⟩
  move h move := h.move move
  finished := by
    intro s s' h done
    cases h with
    | within => simp at done
    | here clean counted =>
      obtain rfl := done
      exact ⟨rfl, Layout.finish_similar .of_bare rfl _⟩
  stuck h stuck := h.stuck stuck

end Scanner.WithReturns

/-- Files with carriage returns lex as files without them. If every line feed of a text without
carriage returns gets one, the text lexes just if it did before. It then has tokens of the same
kinds, which start at the same places or have no span alike, and whose payloads are the same when
carriage returns are left out; only those of comments and string literals hold any. Or else it
fails with the very same error. -/
theorem lexUnit_withReturns {text : String} (clean : '\r' ∉ text.toList) (o : Options)
    (unit : String) (told told' : Diagnostics) :
    LexedAlike Token.WithReturns Eq (lexUnit o unit text told).1
      (lexUnit o unit (String.ofList (withReturns text.toList)) told').1 := by
  apply (Scanner.WithReturns.simulation o).lexUnit
  rw [String.toList_ofList]
  exact .here clean (Nat.le_refl 1)

/-- A line comment, and a literal whose line feed a backslash escapes, behind a linemarker. -/
theorem lexUnit_withReturns_of_escaped_newline :
    '\r' ∉ "# 7 \x22b.dm\x22\nx // b\n\x22c\\\n\x22".toList ∧ ∃ tokens tokens',
      (lexUnit .standard "a.dm" "# 7 \x22b.dm\x22\nx // b\n\x22c\\\n\x22" .empty).1 = .ok tokens ∧
      (lexUnit .standard "a.dm" (String.ofList
        (withReturns "# 7 \x22b.dm\x22\nx // b\n\x22c\\\n\x22".toList)) .empty).1 = .ok tokens' ∧
      tokens.map Token.payload = [some "x", some " b", none, some "c\n"] ∧
      tokens'.map Token.payload = [some "x", some " b\r", none, some "c\r\n"] ∧
      List.Forall₂ Token.WithReturns tokens tokens' := by
  have clean : '\r' ∉ "# 7 \x22b.dm\x22\nx // b\n\x22c\\\n\x22".toList := by decide
  have lexed : (lexUnit .standard "a.dm" "# 7 \x22b.dm\x22\nx // b\n\x22c\\\n\x22" .empty).1 =
      .ok [⟨.ident, some "x", some ⟨⟨"b.dm", 7, 1⟩, ⟨"b.dm", 7, 2⟩⟩⟩,
        ⟨.comment, some " b", some ⟨⟨"b.dm", 7, 3⟩, ⟨"b.dm", 7, 7⟩⟩⟩, .newline,
        ⟨.doubleQuoted, some "c\n", some ⟨⟨"b.dm", 8, 1⟩, ⟨"b.dm", 9, 2⟩⟩⟩] := by
    decide +kernel
  have lexed' : (lexUnit .standard "a.dm" (String.ofList
        (withReturns "# 7 \x22b.dm\x22\nx // b\n\x22c\\\n\x22".toList)) .empty).1 =
      .ok [⟨.ident, some "x", some ⟨⟨"b.dm", 7, 1⟩, ⟨"b.dm", 7, 2⟩⟩⟩,
        ⟨.comment, some " b\r", some ⟨⟨"b.dm", 7, 3⟩, ⟨"b.dm", 7, 8⟩⟩⟩, .newline,
        ⟨.doubleQuoted, some "c\r\n", some ⟨⟨"b.dm", 8, 1⟩, ⟨"b.dm", 9, 2⟩⟩⟩] := by
    decide +kernel
  have alike := lexUnit_withReturns clean .standard "a.dm" .empty .empty
  rw [lexed, lexed'] at alike
  cases alike with
  | ok corresponding => exact ⟨clean, _, _, lexed, lexed', rfl, rfl, corresponding⟩

end DreamLexer
