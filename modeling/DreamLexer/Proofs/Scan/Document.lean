import DreamLexer.Proofs.Layout.Handed
import DreamLexer.Proofs.Text.Delimited
import Mathlib.Control.Monad.Basic

/-!
# Written documents are read back

A document is a list of lines, each with a depth and items. Written out with tabs, single spaces and
line feeds it lexes without an error, and the stream holds the items of each line, between the
markers that lead from one depth to the next: `lexUnit_text`. The proof follows the document item by
item; `Scanner.Reaches` composes what a scan does on the way.
-/

namespace DreamLexer

/-- The kind and the payload of a token. -/
abbrev Shape := TokenKind × Option String

/-- What a token is, without where it stands. -/
def Token.shape (t : Token) : Shape := (t.kind, t.payload)

/-- An item of a line. -/
inductive Item where
  | word (text : List Char)
  | literal (quote : Quote) (text : List Char)
  | punctuation (spelling : List Char) (kind : TokenKind)
  | blockComment (text : List Char)
  | lineComment (text : List Char)

namespace Item

/-- A character of a literal, escaped if it has to be. -/
def escape (quote : Quote) (c : Char) : LiteralPiece :=
  if c = '\\' ∨ c = quote.char then .escaped c
  else if c = '\n' then .escaped 'n'
  else if c = '\t' then .escaped 't'
  else .plain c

/-- The item as it is written. -/
def raw : Item → List Char
  | .word text => text
  | .literal quote text =>
    [quote.char] ++ Literal.raw (text.map (escape quote)) ++ [quote.char]
  | .punctuation spelling _ => spelling
  | .blockComment text => ['/', '*'] ++ text ++ ['*', '/']
  | .lineComment text => ['/', '/'] ++ text

/-- The token that the item stands for. -/
def shape : Item → Shape
  | .word text => (.ident, some (String.ofList text))
  | .literal quote text => (quote.kind, some (String.ofList text))
  | .punctuation _ kind => (kind, none)
  | .blockComment text => (.comment, some (String.ofList text))
  | .lineComment text => (.comment, some (String.ofList text))

/-- The items that can be written. In a block comment every opener and closer has its partner, and
the last symbol is no slash that would go with the star of the closing pair. -/
def Valid : Item → Prop
  | .word text => text ≠ [] ∧ ∀ c ∈ text, Lexeme.isWordPart c
  | .literal _ _ => True
  | .punctuation spelling kind => (spelling, kind) ∈ TokenKind.punctuation ∧ kind ≠ .newline
  | .blockComment text =>
    Comment.Matched 0 (Comment.symbols text) ∧
      (Comment.symbols text).getLast? ≠ some (.plain '/')
  | .lineComment text => '\n' ∉ text

/-- Whether the item reaches to the end of its line. -/
def EndsLine : Item → Prop
  | .lineComment _ => True
  | _ => False

/-- The lexeme that the item is read as. -/
def lexeme : Item → Lexeme
  | .word text => .word text
  | .literal quote text => .literal quote text
  | .punctuation _ kind => .punctuation kind
  | .blockComment text => .comment text
  | .lineComment text => .comment text

end Item

/-- A line of a document. -/
structure Line where
  depth : Nat
  items : List Item

namespace Line

/-- The line as it is written, without a line feed. -/
def raw (line : Line) : List Char :=
  List.replicate line.depth '\t' ++ [' '].intercalate (line.items.map Item.raw)

/-- The lines that can be written: a line comment is the last item of its line. -/
structure Valid (line : Line) : Prop where
  items : ∀ item ∈ line.items, item.Valid
  last : ∀ item ∈ line.items.dropLast, ¬ item.EndsLine

/-- The depth behind the line; a line without items leaves it alone. -/
def depthBehind (depth : Nat) (line : Line) : Nat :=
  if line.items = [] then depth else line.depth

/-- What the line stands for behind a line of this depth. -/
def shapes (depth : Nat) (line : Line) : List Shape :=
  if line.items = [] then []
  else
    List.replicate (line.depth - depth) (.blockBegin, none) ++
      List.replicate (depth - line.depth) (.blockEnd, none) ++ line.items.map Item.shape

end Line

namespace Document

/-- The document as it is written. -/
def text (lines : List Line) : List Char := ['\n'].intercalate (lines.map Line.raw)

/-- What the lines stand for behind a line of this depth, up to the end of the document. -/
def shapes (depth : Nat) : List Line → List Shape
  | [] => List.replicate depth (.blockEnd, none)
  | [line] => line.shapes depth ++ List.replicate (line.depthBehind depth) (.blockEnd, none)
  | line :: next :: lines =>
    line.shapes depth ++ [(.newline, none)] ++ shapes (line.depthBehind depth) (next :: lines)

end Document

/-- The escapes of a literal fit in it and stand for its text. -/
theorem Item.escape_spec (quote : Quote) (c : Char) :
    (Item.escape quote c).FitsIn quote ∧ (Item.escape quote c).value = c := by
  unfold escape
  by_cases special : c = '\\' ∨ c = quote.char
  · rw [if_pos special]
    refine ⟨trivial, ?_⟩
    rcases special with rfl | rfl
    · rfl
    · cases quote <;> rfl
  · rw [if_neg special]
    obtain ⟨slash, closes⟩ := not_or.1 special
    by_cases newline : c = '\n'
    · subst newline
      exact ⟨trivial, rfl⟩
    · rw [if_neg newline]
      by_cases tab : c = '\t'
      · subst tab
        exact ⟨trivial, rfl⟩
      · rw [if_neg tab]
        exact ⟨⟨closes, slash⟩, rfl⟩

/-- Whether an item may end in front of `rest`. -/
def Item.EndsBefore (item : Item) (rest : List Char) : Prop :=
  Lexeme.NextIs (fun c => c = ' ' ∨ c = '\n') rest ∧
    (item.EndsLine → Lexeme.NextIs (· = '\n') rest)

/-- An item is spelled as its lexeme. -/
theorem Item.Valid.spelled {item : Item} {rest : List Char} (valid : item.Valid)
    (ends : item.EndsBefore rest) : item.lexeme.Spelled item.raw rest := by
  obtain ⟨next, last⟩ := ends
  cases item with
  | word text =>
    obtain ⟨filled, inside⟩ := valid
    refine ⟨rfl, filled, inside, ?_⟩
    intro c head
    rcases next c head with rfl | rfl <;> decide
  | literal quote text =>
    refine ⟨text.map (escape quote), rfl, ?_, ?_⟩
    · rw [Literal.value, List.map_map]
      exact (List.map_id'' (fun c => (escape_spec quote c).2) text).symm
    · intro p member
      obtain ⟨c, -, rfl⟩ := List.mem_map.1 member
      exact (escape_spec quote c).1
  | punctuation spelling kind =>
    obtain ⟨member, other⟩ := valid
    refine ⟨other, member, ?_, ?_⟩
    · intro spelling' kind' member' starts
      have unique := Lexeme.punctuation_unique member member' (List.prefix_append _ _) starts
      exact Nat.le_of_eq (congrArg (fun entry => entry.1.length) unique).symm
    · intro _ c head
      rcases next c head with rfl | rfl <;> decide
  | blockComment text =>
    obtain ⟨matched, slash⟩ := valid
    refine .inr ⟨rfl, Comment.symbols text, ?_, matched⟩
    rw [Comment.symbols_append text ['*', '/'] (fun seam => slash seam.1) (by simp)]
    rfl
  | lineComment text => exact .inl ⟨rfl, valid, last trivial⟩

/-- An item ends before the next one and before the end of its line. -/
theorem Item.endsBefore_items {item : Item} {items : List Item} {rest : List Char}
    (last : item.EndsLine → items = []) (next : Lexeme.NextIs (· = '\n') rest) :
    item.EndsBefore (items.flatMap (fun item => ' ' :: item.raw) ++ rest) := by
  cases items with
  | nil => exact ⟨fun c head => .inr (next c head), fun _ => next⟩
  | cons other items =>
    refine ⟨Lexeme.nextIs_cons.2 (.inl rfl), ?_⟩
    intro ends
    simp at last
    exact absurd ends last

theorem Item.last_cons {item : Item} {items : List Item}
    (last : ∀ i ∈ (item :: items).dropLast, ¬ i.EndsLine) :
    (item.EndsLine → items = []) ∧ ∀ i ∈ items.dropLast, ¬ i.EndsLine := by
  cases items with
  | nil => simp
  | cons other items =>
    obtain ⟨first, others⟩ := List.forall_mem_cons.1 last
    exact ⟨fun ends => absurd ends first, others⟩

/-- The token that a lexeme of an item hands out. -/
theorem Item.token?_lexeme (item : Item) (span : Span) :
    ∃ t, item.lexeme.token? .standard span = some t ∧ t.shape = item.shape := by
  cases item with
  | word text => exact ⟨_, rfl, rfl⟩
  | literal quote text => exact ⟨_, rfl, rfl⟩
  | punctuation spelling kind => exact ⟨_, rfl, rfl⟩
  | blockComment text => exact ⟨_, rfl, rfl⟩
  | lineComment text => exact ⟨_, rfl, rfl⟩

section Heads

/-- The characters that are no blank and no sign of a directive. -/
def IsPlain (c : Char) : Prop := c ≠ '#' ∧ c ≠ '\t' ∧ c ≠ '\r' ∧ c ≠ ' '

instance (c : Char) : Decidable (IsPlain c) := inferInstanceAs (Decidable (_ ∧ _))

theorem isPlain_of_isWordPart {c : Char} (part : Lexeme.isWordPart c) : IsPlain c := by
  refine ⟨?_, ?_, ?_, ?_⟩
  · exact Lexeme.ne_of_isWordPart part (by decide)
  · exact Lexeme.ne_of_isWordPart part (by decide)
  · exact Lexeme.ne_of_isWordPart part (by decide)
  · exact Lexeme.ne_of_isWordPart part (by decide)

theorem isPlain_of_punctuation :
    ∀ entry ∈ TokenKind.punctuation, ∃ c ∈ entry.1.head?, IsPlain c := by
  have table : ∀ entry ∈ TokenKind.punctuation, entry.1.head?.any fun c => IsPlain c := by decide
  intro entry member
  simpa [Option.any_eq_true] using table entry member

/-- No lexeme starts with a blank or the sign of a directive. -/
theorem Lexeme.Spelled.head? {lexeme : Lexeme} {raw rest : List Char}
    (h : lexeme.Spelled raw rest) : ∃ c ∈ raw.head?, IsPlain c := by
  cases lexeme with
  | lineBreak =>
    obtain rfl : raw = ['\n'] := h
    exact ⟨'\n', rfl, by decide⟩
  | separator =>
    obtain rfl : raw = [';'] := h
    exact ⟨';', rfl, by decide⟩
  | comment text =>
    rcases h with ⟨rfl, -⟩ | ⟨rfl, -⟩
    · exact ⟨'/', rfl, by decide⟩
    · exact ⟨'/', rfl, by decide⟩
  | word text =>
    obtain ⟨rfl, filled, inside, -⟩ := h
    obtain ⟨c, tail, rfl⟩ := List.exists_cons_of_ne_nil filled
    exact ⟨c, rfl, isPlain_of_isWordPart (inside c (by simp))⟩
  | literal quote text =>
    obtain ⟨pieces, rfl, -⟩ := h
    refine ⟨quote.char, rfl, ?_⟩
    cases quote <;> decide
  | punctuation kind => exact isPlain_of_punctuation _ h.2.1

variable {inIndentation : Bool} {c : Char}

theorem not_isPassed_of_isPlain (h : IsPlain c) : ¬ Scanner.isPassed inIndentation c := by
  obtain ⟨-, tab, cr, space⟩ := h
  simp [Scanner.isPassed, tab, cr, space]

theorem ne_hash_of_isPassed (h : Scanner.isPassed inIndentation c) : c ≠ '#' := by
  intro same
  subst same
  cases inIndentation <;> exact absurd h (by decide)

end Heads

namespace Scanner

variable {o : Options} {s t u : Scanner} {blanks raw rest : List Char} {first second : List Shape}

/-- A scan that hands out `shapes` on the way from one scanner to the other. -/
structure Reaches (o : Options) (s : Scanner) (shapes : List Shape) (t : Scanner) : Prop where
  ending : (s.run o).ending = (t.run o).ending
  tokens : (s.run o).tokens.map Token.shape = shapes ++ (t.run o).tokens.map Token.shape

theorem Reaches.refl (o : Options) (s : Scanner) : s.Reaches o [] s := ⟨rfl, rfl⟩

theorem Reaches.trans (h : s.Reaches o first t) (h' : t.Reaches o second u) :
    s.Reaches o (first ++ second) u where
  ending := h.ending.trans h'.ending
  tokens := by rw [h.tokens, h'.tokens, List.append_assoc]

theorem Reaches.step {tokens : List Token} (h : s.step o = .placed tokens t) :
    s.Reaches o (tokens.map Token.shape) t where
  ending := by rw [run_eq, h]
  tokens := by rw [run_eq, h, List.map_append]

theorem isPassed_of_tabs {inIndentation : Bool} (h : ∀ c ∈ blanks, c = '\t') :
    ∀ c ∈ blanks, isPassed inIndentation c := by
  intro c member
  rw [h c member]
  rfl

theorem step_of_not_directive (h : s.cursor.atDirective = false) :
    s.step o = (s.passBlanks o).readLexeme o := by
  have followed : s.cursor.followMarkers = .ok s.cursor := by
    rw [Cursor.followMarkers, h]
    rfl
  rw [step, followed]

/-- Behind blanks a scan places the lexeme that is spelled there. -/
theorem step_of_spelled {lexeme : Lexeme} (here : s.cursor.rest = blanks ++ (raw ++ rest))
    (blank : ∀ c ∈ blanks, isPassed s.layout.inIndentation c) (spelled : lexeme.Spelled raw rest) :
    ∃ point span, s.step o =
      .placed ((s.layout.passTabs (blanks.count '\t')).place o lexeme span).1
        ⟨⟨rest, point⟩, ((s.layout.passTabs (blanks.count '\t')).place o lexeme span).2⟩ := by
  obtain ⟨c, head, plain⟩ := spelled.head?
  obtain ⟨tail, rfl⟩ : ∃ tail, raw = c :: tail := List.head?_eq_some_iff.1 head
  have clear : s.cursor.atDirective = false := by
    have sign : s.cursor.rest.head? ≠ some '#' := by
      rw [here]
      cases blanks with
      | nil => simpa using plain.1
      | cons b blanks => simpa using ne_hash_of_isPassed (blank b (by simp))
    simp [Cursor.atDirective, sign]
  have stops : Lexeme.NextIs (fun d => ¬ isPassed s.layout.inIndentation d) (c :: tail ++ rest) :=
    Lexeme.nextIs_cons.2 (not_isPassed_of_isPlain plain)
  have passed : s.passBlanks o = ⟨⟨c :: (tail ++ rest),
      s.cursor.point.advanceOver o.effectiveTabWidth blanks⟩,
      s.layout.passTabs (blanks.count '\t')⟩ := by
    unfold passBlanks
    rw [here, Lexeme.takeWhile_of_nextIs blank stops, Lexeme.dropWhile_of_nextIs blank stops]
    rfl
  have read : Lexeme.read c (tail ++ rest) = .ok ⟨lexeme, c :: tail, rest⟩ :=
    Lexeme.read_complete rfl spelled
  rw [step_of_not_directive clear, passed, readLexeme]
  simp only [read]
  exact ⟨_, _, rfl⟩

/-- At the end of the text a scan closes the blocks that are open. -/
theorem run_of_tabs (here : ∀ c ∈ s.cursor.rest, c = '\t') :
    (s.run .standard).ending = .finished ∧
      (s.run .standard).tokens.map Token.shape =
        List.replicate s.layout.depth (.blockEnd, none) := by
  have clear : s.cursor.atDirective = false := by
    have sign : s.cursor.rest.head? ≠ some '#' := by
      intro head
      exact absurd (here '#' (List.mem_of_head? head)) (by decide)
    simp [Cursor.atDirective, sign]
  have blank : ∀ c ∈ s.cursor.rest, isPassed s.layout.inIndentation c := isPassed_of_tabs here
  have done : (s.passBlanks .standard).cursor.rest = [] := by
    have dropped := Lexeme.dropWhile_of_nextIs blank Lexeme.nextIs_nil
    rwa [List.append_nil] at dropped
  have stepped : s.step .standard = (s.passBlanks .standard).finish .standard := by
    rw [step_of_not_directive clear, readLexeme]
    split
    next => rfl
    next c rest filled => simp [done] at filled
  rw [run_eq, stepped]
  refine ⟨rfl, ?_⟩
  simp [finish, Layout.finish, Options.standard, Layout.markers, passBlanks, Layout.passTabs,
    Token.shape, Token.indentEnd]

/-- An item behind blanks is placed, behind the markers that settle its line. -/
theorem reaches_item {item : Item} (here : s.cursor.rest = blanks ++ (item.raw ++ rest))
    (blank : ∀ c ∈ blanks, isPassed s.layout.inIndentation c) (valid : item.Valid)
    (ends : item.EndsBefore rest) :
    ∃ t : Scanner, t.cursor.rest = rest ∧ t.layout.indent = none ∧
      t.layout.depth = (s.layout.passTabs (blanks.count '\t')).settle.2.depth ∧
      s.Reaches .standard
        ((s.layout.passTabs (blanks.count '\t')).settle.1.map Token.shape ++ [item.shape]) t := by
  have settles : item.lexeme.settles := by cases item <;> rfl
  obtain ⟨point, span, stepped⟩ := step_of_spelled (o := .standard) here blank (valid.spelled ends)
  obtain ⟨t, own, shape⟩ := item.token?_lexeme span
  rw [Layout.place_of_settles settles, own] at stepped
  have reached := Reaches.step stepped
  rw [List.map_append, Option.toList_some, List.map_singleton, shape] at reached
  refine ⟨_, ?_, ?_, ?_, reached⟩
  · rfl
  · exact Layout.indent_settle _
  · rfl

/-- The items behind the first one are placed one by one. -/
theorem reaches_items {items : List Item}
    (here : s.cursor.rest = items.flatMap (fun item => ' ' :: item.raw) ++ rest)
    (settled : s.layout.indent = none) (valid : ∀ item ∈ items, item.Valid)
    (last : ∀ item ∈ items.dropLast, ¬ item.EndsLine) (next : Lexeme.NextIs (· = '\n') rest) :
    ∃ t : Scanner, t.cursor.rest = rest ∧ t.layout.depth = s.layout.depth ∧
      s.Reaches .standard (items.map Item.shape) t := by
  induction items generalizing s with
  | nil => exact ⟨s, here, rfl, .refl _ s⟩
  | cons item items ih =>
    obtain ⟨valid, others⟩ := List.forall_mem_cons.1 valid
    obtain ⟨last, last_others⟩ := Item.last_cons last
    have blank : ∀ c ∈ [' '], isPassed s.layout.inIndentation c := by
      simp [Layout.inIndentation, settled, isPassed]
    have here' : s.cursor.rest =
        [' '] ++ (item.raw ++ (items.flatMap (fun item => ' ' :: item.raw) ++ rest)) := by
      simpa using here
    obtain ⟨t, rest_eq, indent, depth, reached⟩ :=
      reaches_item here' blank valid (Item.endsBefore_items last next)
    have quiet : (s.layout.passTabs ([' '].count '\t')).settle = ([], s.layout) := by
      have same : s.layout.passTabs ([' '].count '\t') = s.layout := by simp [Layout.passTabs]
      rw [same, Layout.settle, settled]
    rw [quiet] at depth reached
    obtain ⟨u, rest_eq', depth', reached'⟩ := ih rest_eq indent others last_others
    exact ⟨u, rest_eq', depth'.trans depth, reached.trans reached'⟩

/-- A line hands out its markers and items. Only tabs may be left of it, if it has no items. -/
theorem reaches_line {line : Line} (here : s.cursor.rest = line.raw ++ rest)
    (indent : s.layout.indent = some 0) (valid : line.Valid)
    (next : Lexeme.NextIs (· = '\n') rest) :
    ∃ (t : Scanner) (tabs : List Char), t.cursor.rest = tabs ++ rest ∧ (∀ c ∈ tabs, c = '\t') ∧
      t.layout.depth = line.depthBehind s.layout.depth ∧
      s.Reaches .standard (line.shapes s.layout.depth) t := by
  obtain ⟨depth, items⟩ := line
  cases items with
  | nil =>
    refine ⟨s, List.replicate depth '\t', ?_, fun c => List.eq_of_mem_replicate, rfl, .refl _ s⟩
    simpa [Line.raw] using here
  | cons item items =>
    obtain ⟨valid, last⟩ := valid
    obtain ⟨valid, others⟩ := List.forall_mem_cons.1 valid
    obtain ⟨last, last_others⟩ := Item.last_cons last
    have blank : ∀ c ∈ List.replicate depth '\t', isPassed s.layout.inIndentation c :=
      isPassed_of_tabs fun c => List.eq_of_mem_replicate
    have here' : s.cursor.rest = List.replicate depth '\t' ++
        (item.raw ++ (items.flatMap (fun item => ' ' :: item.raw) ++ rest)) := by
      simpa [Line.raw, intercalate_cons, List.flatMap_map] using here
    obtain ⟨t, rest_eq, settled, depth_eq, reached⟩ :=
      reaches_item here' blank valid (Item.endsBefore_items last next)
    obtain ⟨u, rest_eq', depth_eq', reached'⟩ :=
      reaches_items rest_eq settled others last_others next
    have settle : (s.layout.passTabs ((List.replicate depth '\t').count '\t')).settle =
        (Layout.markers s.layout.depth depth,
          { s.layout with indent := none, depth := depth }) := by
      simp [Layout.passTabs, Layout.settle, indent]
    rw [settle] at depth_eq reached
    refine ⟨u, [], rest_eq', by simp, depth_eq'.trans depth_eq, ?_⟩
    have whole := reached.trans reached'
    simpa [Line.shapes, Layout.markers, Token.shape, Token.indentBegin, Token.indentEnd] using whole

/-- A line feed behind tabs is a new line. -/
theorem reaches_newline (here : s.cursor.rest = blanks ++ '\n' :: rest)
    (tabs : ∀ c ∈ blanks, c = '\t') :
    ∃ t : Scanner, t.cursor.rest = rest ∧ t.layout.indent = some 0 ∧
      t.layout.depth = s.layout.depth ∧ s.Reaches .standard [(.newline, none)] t := by
  have breaks : Lexeme.Spelled ['\n'] rest .lineBreak := rfl
  obtain ⟨point, span, stepped⟩ :=
    step_of_spelled (o := .standard) here (isPassed_of_tabs tabs) breaks
  refine ⟨_, ?_, ?_, ?_, Reaches.step stepped⟩
  · rfl
  · rfl
  · rfl

/-- A document is scanned to its end. -/
theorem run_document {lines : List Line} (here : s.cursor.rest = Document.text lines)
    (indent : s.layout.indent = some 0) (valid : ∀ line ∈ lines, line.Valid) :
    (s.run .standard).ending = .finished ∧
      (s.run .standard).tokens.map Token.shape = Document.shapes s.layout.depth lines := by
  induction lines generalizing s with
  | nil =>
    apply run_of_tabs
    rw [here]
    simp [Document.text]
  | cons line lines ih =>
    obtain ⟨first, others⟩ := List.forall_mem_cons.1 valid
    cases lines with
    | nil =>
      have here' : s.cursor.rest = line.raw ++ [] := by simpa [Document.text] using here
      obtain ⟨t, tabs, rest_eq, all, depth, reached⟩ :=
        reaches_line here' indent first Lexeme.nextIs_nil
      rw [List.append_nil] at rest_eq
      obtain ⟨finished, shapes⟩ := run_of_tabs (rest_eq ▸ all)
      refine ⟨reached.ending.trans finished, ?_⟩
      rw [reached.tokens, shapes, depth]
      rfl
    | cons next lines =>
      have here' : s.cursor.rest = line.raw ++ ('\n' :: Document.text (next :: lines)) := by
        simpa [Document.text] using here
      obtain ⟨t, tabs, rest_eq, all, depth, reached⟩ :=
        reaches_line here' indent first (Lexeme.nextIs_cons.2 rfl)
      -- The tabs of a line without items are passed together with its line feed.
      obtain ⟨u, rest_eq', indent', depth', broken⟩ := reaches_newline rest_eq all
      obtain ⟨finished, shapes⟩ := ih rest_eq' indent' others
      have whole := reached.trans broken
      refine ⟨whole.ending.trans finished, ?_⟩
      rw [whole.tokens, shapes, Document.shapes, depth', depth]

end Scanner

/-- A document is read as it was written: with the standard options its text lexes, nothing is told,
and the stream holds the markers, items and new lines of its lines. -/
theorem lexUnit_text (lines : List Line) (valid : ∀ line ∈ lines, line.Valid) (unit : String)
    (told : Diagnostics) :
    ∃ tokens, lexUnit .standard unit (String.ofList (Document.text lines)) told =
        (.ok tokens, told) ∧
      tokens.map Token.shape = Document.shapes 0 lines := by
  have here : (Scanner.start unit (String.ofList (Document.text lines)).toList).cursor.rest =
      Document.text lines := String.toList_ofList
  obtain ⟨finished, shapes⟩ := Scanner.run_document here rfl valid
  rw [lexUnit_eq, finished]
  exact ⟨_, rfl, shapes⟩

/-- A word, and in its block a literal brace and a comment. -/
theorem lexUnit_text_of_block :
    ∃ tokens, lexUnit .standard "a.dm" "a\n\t\x7b /*b*/" .empty = (.ok tokens, .empty) ∧
      tokens.map Token.shape =
        [(.ident, some "a"), (.newline, none), (.blockBegin, none), (.blockBegin, none),
          (.comment, some "b"), (.blockEnd, none)] := by
  have word : Line.Valid ⟨0, [.word ['a']]⟩ := by
    refine ⟨List.forall_mem_singleton.2 ⟨by simp, ?_⟩, by simp⟩
    exact List.forall_mem_singleton.2 (by decide)
  have block : Line.Valid ⟨1, [.punctuation ['\x7b'] .blockBegin, .blockComment ['b']]⟩ := by
    refine ⟨List.forall_mem_cons.2 ⟨by simp [Item.Valid, TokenKind.punctuation], ?_⟩, ?_⟩
    · refine List.forall_mem_singleton.2 ⟨?_, by decide⟩
      exact Comment.Matched.plain_cons.2 Comment.Matched.zero_nil
    · exact List.forall_mem_singleton.2 id
  exact lexUnit_text
    [⟨0, [.word ['a']]⟩, ⟨1, [.punctuation ['\x7b'] .blockBegin, .blockComment ['b']]⟩]
    (List.forall_mem_cons.2 ⟨word, List.forall_mem_singleton.2 block⟩) "a.dm" .empty

end DreamLexer
