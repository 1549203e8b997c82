import DreamLexer.Proofs.Scan.Alike
import DreamLexer.Proofs.Token.Table
import Mathlib.Data.List.DropRight

/-!
# Options only thin the stream

With any options a unit gives what it gives with the options that keep everything, thinned
afterwards: the last markers dropped, reserved words renamed, comments left out and new lines
collapsed, in this order. `Layout.Thins` relates the two layouts while the same pieces are read, and
`lexUnit_thin` is the result, errors included.
-/

namespace DreamLexer

namespace Token

/-- A block marker that closes a block of the indentation. -/
def closesIndentation (t : Token) : Bool := t.kind == .blockEnd && t.span.isNone

/-- Whether the token is an identifier with the spelling of an entry. -/
def isSpelledBy (t : Token) (entry : String × Keyword) : Bool :=
  t.kind == .ident && t.payload == some entry.1

/-- The token with the kind of the reserved word that it spells, if the table has one. -/
def reserved (t : Token) : Token :=
  match Keyword.table.find? t.isSpelledBy with
  | some (_, word) => { t with kind := .keyword word }
  | none => t

variable {t : Token} {spelling : String} {word : Keyword}

theorem isSpelledBy_iff {entry : String × Keyword} :
    t.isSpelledBy entry = true ↔ t.kind = .ident ∧ t.payload = some entry.1 := by
  simp [isSpelledBy]

/-- The table has one word for a spelling, so it does not matter which entry is found. -/
theorem reserved_of_mem (entry : (spelling, word) ∈ Keyword.table) (ident : t.kind = .ident)
    (spells : t.payload = some spelling) : t.reserved = { t with kind := .keyword word } := by
  unfold reserved
  split
  next other word' found =>
    have spells' := (isSpelledBy_iff.1 (List.find?_some found)).2
    obtain rfl : spelling = other := Option.some.inj (spells.symm.trans spells')
    have known := Keyword.ofSpelling?_eq_some_iff.2 entry
    rw [Keyword.ofSpelling?_eq_some_iff.2 (List.mem_of_find?_eq_some found)] at known
    rw [Option.some.inj known]
  next missing =>
    exact absurd (isSpelledBy_iff.2 ⟨ident, spells⟩) (List.find?_eq_none.1 missing _ entry)

theorem reserved_of_not_mem (missing : ∀ entry ∈ Keyword.table, ¬ t.isSpelledBy entry) :
    t.reserved = t := by
  rw [reserved, List.find?_eq_none.2 missing]

theorem reserved_of_ne (other : t.kind ≠ .ident) : t.reserved = t := by
  apply reserved_of_not_mem
  intro entry _ spelled
  exact other (isSpelledBy_iff.1 spelled).1

/-- The kind that the lexer finds for an identifier is that of the entry in the table. -/
theorem reserved_ident (spelling : String) (span : Option Span) :
    reserved ⟨.ident, some spelling, span⟩ =
      ⟨(TokenKind.ofReserved? spelling).getD .ident, some spelling, span⟩ := by
  cases found : TokenKind.ofReserved? spelling with
  | some kind =>
    obtain ⟨word, entry, rfl⟩ := TokenKind.ofReserved?_eq_some_iff.1 found
    exact reserved_of_mem entry rfl rfl
  | none =>
    apply reserved_of_not_mem
    intro entry member spelled
    obtain rfl : spelling = entry.1 := Option.some.inj (isSpelledBy_iff.1 spelled).2
    have known := TokenKind.ofReserved?_eq_some_iff.2 ⟨entry.2, member, rfl⟩
    rw [found] at known
    cases known

theorem kind_reserved (t : Token) :
    t.reserved.kind = t.kind ∨ ∃ word, t.reserved.kind = .keyword word := by
  unfold reserved
  split
  next word _ => exact .inr ⟨word, rfl⟩
  next => exact .inl rfl

end Token

/-- Whether the last token is a new line. -/
def EndsInNewline (tokens : List Token) : Prop := tokens.getLast?.map Token.kind = some .newline

instance (tokens : List Token) : Decidable (EndsInNewline tokens) :=
  inferInstanceAs (Decidable (_ = _))

/-- Adds a token, unless it is a new line behind a new line. -/
def addCollapsed (kept : List Token) (t : Token) : List Token :=
  if t.kind = .newline ∧ EndsInNewline kept then kept else kept ++ [t]

/-- Leaves out every new line behind one that is kept. -/
def collapse (tokens : List Token) : List Token := tokens.foldl addCollapsed []

namespace Options

/-- The options with the same tabs that keep everything. -/
def whole (o : Options) : Options where
  emitComments := true
  collapseNewlines := false
  keywords := false
  tabWidth := o.tabWidth
  closeBlocksAtEof := true

variable (o : Options) (tokens : List Token)

/-- Drops the markers that close the last blocks, unless they are asked for. -/
def thinEnd : List Token :=
  if o.closeBlocksAtEof then tokens else tokens.rdropWhile Token.closesIndentation

/-- Gives reserved words their kind, if that is asked for. -/
def thinWords : List Token := if o.keywords then tokens.map Token.reserved else tokens

/-- Leaves out comments, unless they are asked for. -/
def thinComments : List Token :=
  if o.emitComments then tokens else tokens.filter (·.kind ≠ .comment)

/-- Collapses new lines, if that is asked for. -/
def thinNewlines : List Token := if o.collapseNewlines then collapse tokens else tokens

/-- All the thinning that does not regard the end. -/
def thinInside : List Token := o.thinNewlines (o.thinComments (o.thinWords tokens))

/-- The stream of all tokens, thinned as the options ask. -/
def thin : List Token := o.thinInside (o.thinEnd tokens)

end Options

section

variable {o : Options} {kept first second : List Token} {t : Token}

theorem endsInNewline_append (others : ∀ t ∈ second, t.kind ≠ .newline) :
    EndsInNewline (first ++ second) ↔ EndsInNewline first ∧ second = [] := by
  cases last : second.getLast? with
  | none =>
    obtain rfl := List.getLast?_eq_none_iff.1 last
    simp
  | some t =>
    have member := List.mem_of_getLast? last
    have filled : second ≠ [] := List.ne_nil_of_mem member
    simp [EndsInNewline, List.getLast?_append, last, others t member, filled]

theorem collapse_append (first second : List Token) :
    collapse (first ++ second) = second.foldl addCollapsed (collapse first) := List.foldl_append

/-- Tokens that are no new lines are all added. -/
theorem foldl_addCollapsed (others : ∀ t ∈ second, t.kind ≠ .newline) :
    second.foldl addCollapsed kept = kept ++ second := by
  induction second generalizing kept with
  | nil => simp
  | cons t second ih =>
    obtain ⟨other, others⟩ := List.forall_mem_cons.1 others
    rw [List.foldl_cons, ih others, addCollapsed, if_neg (fun both => other both.1)]
    simp

namespace Options

theorem thinWords_append :
    o.thinWords (first ++ second) = o.thinWords first ++ o.thinWords second := by
  unfold thinWords
  split
  · exact List.map_append
  · rfl

theorem thinComments_append :
    o.thinComments (first ++ second) = o.thinComments first ++ o.thinComments second := by
  unfold thinComments
  split
  · rfl
  · exact List.filter_append first second

theorem kind_ne_of_mem_thin (others : ∀ t ∈ second, t.kind ≠ .newline)
    (member : t ∈ o.thinComments (o.thinWords second)) : t.kind ≠ .newline := by
  have word : t ∈ o.thinWords second := by
    unfold thinComments at member
    split at member
    · exact member
    · exact (List.mem_filter.1 member).1
  unfold thinWords at word
  split at word
  · obtain ⟨u, among, rfl⟩ := List.mem_map.1 word
    rcases u.kind_reserved with same | ⟨word, reserved⟩
    · rw [same]
      exact others u among
    · rw [reserved]
      simp
  · exact others t word

/-- Behind what is thinned already, tokens that are no new lines are thinned on their own. -/
theorem thinInside_append (others : ∀ t ∈ second, t.kind ≠ .newline) :
    o.thinInside (first ++ second) = o.thinInside first ++ o.thinComments (o.thinWords second) := by
  unfold thinInside
  rw [thinWords_append, thinComments_append]
  unfold thinNewlines
  split
  · rw [collapse_append, foldl_addCollapsed]
    intro t member
    exact kind_ne_of_mem_thin others member
  · rfl

theorem thinInside_concat_newline :
    o.thinInside (first ++ [.newline]) =
      if o.collapseNewlines ∧ EndsInNewline (o.thinInside first) then o.thinInside first
      else o.thinInside first ++ [.newline] := by
  have words : o.thinWords [.newline] = [.newline] := by
    unfold thinWords
    split <;> rfl
  have comments : o.thinComments [.newline] = [.newline] := by
    unfold thinComments
    split <;> rfl
  unfold thinInside
  rw [thinWords_append, thinComments_append, words, comments]
  unfold thinNewlines
  by_cases collapses : o.collapseNewlines
  · rw [if_pos collapses, if_pos collapses, collapse_append]
    simp [addCollapsed, collapses, Token.newline]
  · rw [if_neg collapses, if_neg collapses, if_neg (fun both => collapses both.1)]

theorem thinInside_nil : o.thinInside [] = [] := by
  simp [thinInside, thinNewlines, thinComments, thinWords, collapse]

/-- Markers are kept as they are. -/
theorem thin_markers (h : ∀ t ∈ second, t = .indentBegin ∨ t = .indentEnd) :
    o.thinComments (o.thinWords second) = second := by
  have words : o.thinWords second = second := by
    unfold thinWords
    split
    · rw [List.map_congr_left (g := id), List.map_id]
      intro t member
      rcases h t member with rfl | rfl <;> rfl
    · rfl
  rw [words, thinComments]
  split
  · rfl
  · rw [List.filter_eq_self]
    intro t member
    rcases h t member with rfl | rfl <;> rfl

theorem thinWords_singleton (h : t.kind ≠ .ident) : o.thinWords [t] = [t] := by
  unfold thinWords
  split
  · rw [List.map_singleton, Token.reserved_of_ne h]
  · rfl

theorem thinComments_singleton (h : t.kind ≠ .comment) : o.thinComments [t] = [t] := by
  unfold thinComments
  split
  · rfl
  · simp [h]

/-- The markers behind the last token are dropped, unless they are asked for. -/
theorem thinEnd_append (last : ∀ t, first.getLast? = some t → ¬ t.closesIndentation) (depth : Nat) :
    o.thinEnd (first ++ List.replicate depth .indentEnd) =
      if o.closeBlocksAtEof then first ++ List.replicate depth .indentEnd else first := by
  unfold thinEnd
  split
  · rfl
  · induction depth with
    | zero =>
      rw [List.replicate_zero, List.append_nil, List.rdropWhile_eq_self_iff]
      intro filled
      exact last _ (List.getLast?_eq_some_getLast filled)
    | succ depth ih =>
      rw [List.replicate_succ', ← List.append_assoc, List.rdropWhile_concat_pos _ _ _ rfl, ih]

end Options

/-- The kinds of punctuation are its own. -/
theorem punctuation_kind :
    ∀ entry ∈ TokenKind.punctuation, entry.2 ≠ .ident ∧ entry.2 ≠ .comment := by
  decide

/-- Thinned, the token of a lexeme is the one that the options ask for. -/
theorem Lexeme.Spelled.thin {lexeme : Lexeme} {raw rest : List Char} (settles : lexeme.settles)
    (spelled : lexeme.Spelled raw rest) (o : Options) (span : Span) :
    ∃ t, lexeme.token? o.whole span = some t ∧ t.kind ≠ .newline ∧
      o.thinComments (o.thinWords [t]) = (lexeme.token? o span).toList := by
  cases lexeme with
  | lineBreak => simp [Lexeme.settles] at settles
  | separator => simp [Lexeme.settles] at settles
  | comment text =>
    refine ⟨_, rfl, by simp, ?_⟩
    rw [Options.thinWords_singleton (by simp), Options.thinComments, Lexeme.token?]
    by_cases comments : o.emitComments
    · rw [if_pos comments, if_pos comments]
      rfl
    · rw [if_neg comments, if_neg comments]
      rfl
  | word text =>
    refine ⟨⟨.ident, some (String.ofList text), some span⟩, rfl, by simp, ?_⟩
    by_cases reserved : o.keywords
    · have own : Lexeme.token? o span (.word text) =
          some (Token.reserved ⟨.ident, some (String.ofList text), some span⟩) := by
        rw [Token.reserved_ident, Lexeme.token?, if_pos reserved]
      have word :
          (Token.reserved ⟨.ident, some (String.ofList text), some span⟩).kind ≠ .comment := by
        rcases Token.kind_reserved ⟨.ident, some (String.ofList text), some span⟩ with
          same | ⟨word, same⟩
        · simp [same]
        · simp [same]
      rw [own, Options.thinWords, if_pos reserved, List.map_singleton,
        Options.thinComments_singleton word]
      rfl
    · have own : Lexeme.token? o span (.word text) =
          some ⟨.ident, some (String.ofList text), some span⟩ := by
        simp [Lexeme.token?, reserved]
      rw [own, Options.thinWords, if_neg reserved, Options.thinComments_singleton (by simp)]
      rfl
  | literal quote text =>
    have kinds : quote.kind ≠ .newline ∧ quote.kind ≠ .ident ∧ quote.kind ≠ .comment := by
      cases quote <;> decide
    refine ⟨_, rfl, kinds.1, ?_⟩
    rw [Options.thinWords_singleton kinds.2.1, Options.thinComments_singleton kinds.2.2]
    rfl
  | punctuation kind =>
    obtain ⟨other, member, -⟩ := spelled
    obtain ⟨word, comment⟩ := punctuation_kind _ member
    refine ⟨_, rfl, other, ?_⟩
    rw [Options.thinWords_singleton word, Options.thinComments_singleton comment]
    rfl

end

/-- The layout `l`, which handed out `kept`, stands where the layout `m`, which kept everything and
handed out `all`, does. -/
structure Layout.Thins (o : Options) (l m : Layout) (kept all : List Token) : Prop where
  indent : l.indent = m.indent
  depth : l.depth = m.depth
  thinned : kept = o.thinInside all
  newline : l.afterNewline = true ↔ EndsInNewline kept
  /-- What was read so far never ends with a marker. -/
  last : ∀ t, all.getLast? = some t → ¬ t.closesIndentation

namespace Layout.Thins

variable {o : Options} {l m : Layout} {kept all : List Token}

theorem start (o : Options) : Thins o .start .start [] [] where
  indent := rfl
  depth := rfl
  thinned := Options.thinInside_nil.symm
  newline := by simp [Layout.start, EndsInNewline]
  last := by simp

theorem settle_eq (h : Thins o l m kept all) :
    l.settle.1 = m.settle.1 ∧ l.settle.2.depth = m.settle.2.depth ∧
      l.settle.2.afterNewline = l.afterNewline := by
  unfold settle
  rw [h.indent]
  split
  · exact ⟨rfl, h.depth, rfl⟩
  · exact ⟨by rw [h.depth], rfl, rfl⟩

theorem newline_thins (h : Thins o l m kept all) :
    Thins o (l.newline o).2 (m.newline o.whole).2 (kept ++ (l.newline o).1)
      (all ++ (m.newline o.whole).1) := by
  obtain ⟨-, indent, depth⟩ := newline_spec o l
  obtain ⟨-, indent', depth'⟩ := newline_spec o.whole m
  have handed : (m.newline o.whole).1 = [.newline] := rfl
  refine ⟨by rw [indent, indent', h.indent], by rw [depth, depth', h.depth], ?_, ?_, ?_⟩
  · rw [handed, Options.thinInside_concat_newline, ← h.thinned, Layout.newline]
    by_cases drop : o.collapseNewlines ∧ l.afterNewline
    · rw [if_pos (by simpa using drop), if_pos ⟨drop.1, h.newline.1 drop.2⟩, List.append_nil]
    · rw [if_neg (by simpa using drop), if_neg (by rwa [← h.newline])]
  · rw [Layout.newline]
    by_cases drop : o.collapseNewlines ∧ l.afterNewline
    · rw [if_pos (by simpa using drop), List.append_nil]
      exact h.newline
    · rw [if_neg (by simpa using drop)]
      simp [EndsInNewline, Token.newline]
  · intro t last
    rw [handed, List.getLast?_concat] at last
    cases last
    decide

theorem settles {lexeme : Lexeme} {raw rest : List Char} {span : Span} (h : Thins o l m kept all)
    (settles : lexeme.settles) (spelled : lexeme.Spelled raw rest) :
    Thins o (l.place o lexeme span).2 (m.place o.whole lexeme span).2
      (kept ++ (l.place o lexeme span).1) (all ++ (m.place o.whole lexeme span).1) := by
  obtain ⟨t, own, other, thinned⟩ := spelled.thin settles o span
  obtain ⟨marks, depth, newline⟩ := h.settle_eq
  rw [place_of_settles settles, place_of_settles settles, own, marks]
  have marker := fun u (member : u ∈ m.settle.1) => mem_settle member
  have others : ∀ u ∈ m.settle.1 ++ [t], u.kind ≠ .newline := by
    intro u member
    rcases List.mem_append.1 member with mark | last
    · rcases marker u mark with rfl | rfl <;> decide
    · rwa [List.mem_singleton.1 last]
  have handed : o.thinComments (o.thinWords (m.settle.1 ++ [t])) =
      m.settle.1 ++ (lexeme.token? o span).toList := by
    rw [Options.thinWords_append, Options.thinComments_append, Options.thin_markers marker, thinned]
  refine ⟨?_, depth, ?_, ?_, ?_⟩
  · exact (indent_settle l).trans (indent_settle m).symm
  · rw [Option.toList_some, Options.thinInside_append others, handed, h.thinned]
  · have others' : ∀ u ∈ m.settle.1 ++ (lexeme.token? o span).toList, u.kind ≠ .newline := by
      rw [← handed]
      exact fun u => Options.kind_ne_of_mem_thin others
    rw [endsInNewline_append others', ← h.newline, afterTokens, newline, Bool.and_eq_true,
      List.isEmpty_iff]
  · intro u last
    rw [Option.toList_some, ← List.append_assoc, List.getLast?_concat] at last
    cases last
    simp [Token.closesIndentation, Lexeme.span_of_token? own]

theorem finish (h : Thins o l m kept all) :
    kept ++ (l.finish o).1 = o.thin (all ++ (m.finish o.whole).1) := by
  have markers : (m.finish o.whole).1 = List.replicate m.depth .indentEnd := by
    simp [Layout.finish, Options.whole, Layout.markers]
  rw [markers, Options.thin, Options.thinEnd_append h.last, Layout.finish]
  by_cases closes : o.closeBlocksAtEof
  · have ends : ∀ u ∈ List.replicate m.depth Token.indentEnd, u = .indentBegin ∨ u = .indentEnd :=
      fun u member => .inr (List.eq_of_mem_replicate member)
    have others : ∀ u ∈ List.replicate m.depth Token.indentEnd, u.kind ≠ .newline := by
      intro u member
      rw [List.eq_of_mem_replicate member]
      decide
    rw [if_pos closes, if_pos closes, Options.thinInside_append others, Options.thin_markers ends,
      ← h.thinned, ← h.depth]
    simp [Layout.markers]
  · rw [if_neg closes, if_neg closes, List.append_nil, h.thinned]

end Layout.Thins

section

variable {o : Options} {s t : Scanner} {p : Piece} {pieces : List Piece} {m : Layout}
  {kept all : List Token}

/-- A move under `o` hands out what it hands out under the options that keep everything, thinned. -/
theorem Move.thins (move : Move o s p t) (h : s.layout.Thins o m kept all) :
    t.layout.Thins o (m.read o.whole p).2 (kept ++ (s.layout.read o p).1)
      (all ++ (m.read o.whole p).1) := by
  cases move with
  | marker stands parsed => simpa [Layout.read] using h
  | blanks clear =>
    obtain ⟨indent, depth, thinned, newline, last⟩ := h
    simp only [Layout.read, List.append_nil]
    refine ⟨?_, depth, thinned, newline, last⟩
    simp [Scanner.passBlanks, Layout.passTabs, indent]
  | @lexeme rest raw point l lexeme span spelled covers =>
    cases lexeme with
    | lineBreak =>
      have fresh :
          Layout.Thins o { l with indent := some 0 } { m with indent := some 0 } kept all :=
        ⟨rfl, h.depth, h.thinned, h.newline, h.last⟩
      exact fresh.newline_thins
    | separator => exact h.newline_thins
    | _ => exact h.settles rfl spelled

theorem Moves.thins (moves : Moves o s pieces t) (h : s.layout.Thins o m kept all) :
    t.layout.Thins o (m.after o.whole pieces) (kept ++ s.layout.tokens o pieces)
      (all ++ m.tokens o.whole pieces) := by
  induction moves generalizing m kept all with
  | refl => simpa using h
  | @head s t u p pieces move _ ih =>
    have behind := ih (move.thins h)
    rw [move.layout_eq] at behind
    rwa [List.append_assoc, List.append_assoc] at behind

end

/-- With any options a unit gives the error that it gives with the options that keep everything,
told in the same way, or else the same stream, thinned as the options ask. -/
theorem lexUnit_thin (o : Options) (unit text : String) (told : Diagnostics) :
    match lexUnit o.whole unit text told with
    | (.ok tokens, after) =>
      after = told ∧ lexUnit o unit text told = (.ok (o.thin tokens), told)
    | (.error e, after) =>
      after = told.report e.text e.position ∧ lexUnit o unit text told = (.error e, after) := by
  have width : o.effectiveTabWidth = o.whole.effectiveTabWidth :=
    Options.effectiveTabWidth_congr rfl
  obtain ⟨pieces, ending⟩ := unit_alike width unit text
  cases ended : ((Scanner.start unit text.toList).run o).ending with
  | failed e =>
    rw [lexUnit_eq, lexUnit_eq, ← ending, ended]
    exact ⟨rfl, rfl⟩
  | finished =>
    have lexed : (lexUnit o unit text told).1 =
        .ok ((Scanner.start unit text.toList).run o).tokens := by rw [lexUnit_eq, ended]
    have lexed' : (lexUnit o.whole unit text told).1 =
        .ok ((Scanner.start unit text.toList).run o.whole).tokens := by
      rw [lexUnit_eq, ← ending, ended]
    obtain ⟨stop, moves, -, tokens⟩ := moves_of_lexUnit lexed
    obtain ⟨stop', moves', -, tokens'⟩ := moves_of_lexUnit lexed'
    -- Both runs pass the same pieces, so only what the layouts hand out for them is compared.
    have thins := moves.thins (Layout.Thins.start o)
    rw [lexUnit_eq, lexUnit_eq, ← ending, ended]
    refine ⟨rfl, ?_⟩
    rw [tokens, tokens', moves'.layout_eq, ← pieces]
    exact congrArg (fun tokens => (Except.ok tokens, told)) thins.finish

/-- A reserved word gets its kind and a word that only starts like one does not, a comment and the
second of two new lines are left out, and the block of the last line stays open. -/
theorem lexUnit_thin_of_reserved_word :
    lexUnit ⟨false, true, true, 8, false⟩ "a.dm" "var//c\n\n\tvars" .empty =
      (.ok [⟨.keyword .varWord, some "var", some ⟨⟨"a.dm", 1, 1⟩, ⟨"a.dm", 1, 4⟩⟩⟩, .newline,
        .indentBegin, ⟨.ident, some "vars", some ⟨⟨"a.dm", 3, 9⟩, ⟨"a.dm", 3, 13⟩⟩⟩], .empty) := by
  have whole : lexUnit (Options.whole ⟨false, true, true, 8, false⟩) "a.dm" "var//c\n\n\tvars"
      .empty =
      (.ok [⟨.ident, some "var", some ⟨⟨"a.dm", 1, 1⟩, ⟨"a.dm", 1, 4⟩⟩⟩,
        ⟨.comment, some "c", some ⟨⟨"a.dm", 1, 4⟩, ⟨"a.dm", 1, 7⟩⟩⟩, .newline, .newline,
        .indentBegin, ⟨.ident, some "vars", some ⟨⟨"a.dm", 3, 9⟩, ⟨"a.dm", 3, 13⟩⟩⟩,
        .indentEnd], .empty) := by decide +kernel
  have thinned := lexUnit_thin ⟨false, true, true, 8, false⟩ "a.dm" "var//c\n\n\tvars" .empty
  rw [whole] at thinned
  rw [thinned.2]
  decide +kernel

end DreamLexer
