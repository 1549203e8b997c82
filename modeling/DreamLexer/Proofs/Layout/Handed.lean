import DreamLexer.Proofs.Scan.Piece

/-!
# What the layout hands out

A piece hands out the block markers that settle its line, the token of its own or a new line. The
first section says which; the second counts the markers: their balance is the depth, and no part of
the stream closes more blocks than are open.
-/

namespace DreamLexer

section

variable {α : Type} {first second before behind : List α} {a : α}

/-- An element that is not in the first of two lists is in the second. -/
theorem behind_of_not_mem (absent : a ∉ first) (h : first ++ second = before ++ a :: behind) :
    ∃ more, before = first ++ more ∧ second = more ++ a :: behind := by
  rcases List.append_eq_append_iff.1 h with whole | ⟨more, rfl, within⟩
  · exact whole
  · cases more with
    | nil => exact ⟨[], by simp, by simpa using within.symm⟩
    | cons b more =>
      obtain ⟨rfl, -⟩ := by simpa using within
      simp at absent

theorem within_of_not_mem (absent : a ∉ second) (h : first ++ second = before ++ a :: behind) :
    ∃ more, first = before ++ a :: more := by
  rcases List.append_eq_append_iff.1 h with ⟨more, rfl, rfl⟩ | ⟨more, rfl, within⟩
  · simp at absent
  · cases more with
    | nil =>
      obtain rfl : _ = second := within
      simp at absent
    | cons b more =>
      obtain ⟨rfl, -⟩ := by simpa using within
      exact ⟨more, rfl⟩

end

/-- Whether the token is a block marker that comes from the indentation. -/
def Token.isIndentation (t : Token) : Bool := t.kind.isBlock && t.span.isNone

/-- Whether the lexeme settles the depth of its line. -/
def Lexeme.settles : Lexeme → Bool
  | .lineBreak | .separator => false
  | _ => true

theorem Lexeme.span_of_token? {o : Options} {span : Span} {lexeme : Lexeme} {t : Token}
    (h : lexeme.token? o span = some t) : t.span = some span := by
  cases lexeme with
  | lineBreak => simp [token?] at h
  | separator => simp [token?] at h
  | comment text =>
    simp only [token?] at h
    split at h
    · cases h
      rfl
    · simp at h
  | word text =>
    cases h
    rfl
  | literal quote text =>
    cases h
    rfl
  | punctuation kind =>
    cases h
    rfl

namespace Piece

/-- Whether the piece settles the depth of its line: a comment, or a token that is no new line. -/
def settles : Piece → Bool
  | .lexeme _ found _ => found.settles
  | _ => false

theorem settles_of_token? {o : Options} {p : Piece} {t : Token} (h : p.token? o = some t) :
    p.settles := by
  cases p with
  | marker raw m => simp [token?] at h
  | blanks raw => simp [token?] at h
  | lexeme raw found span =>
    cases found <;> simp_all [token?, settles, Lexeme.settles, Lexeme.token?]

theorem span_of_token? {o : Options} {p : Piece} {t : Token} (h : p.token? o = some t) :
    t.span.isSome := by
  cases p with
  | marker raw m => simp [token?] at h
  | blanks raw => simp [token?] at h
  | lexeme raw found span => simp [Lexeme.span_of_token? h]

end Piece

namespace Layout

variable {o : Options} {l : Layout} {p : Piece}

/-- A new line hands out a token or nothing, and leaves the indentation and the depth. -/
theorem newline_spec (o : Options) (l : Layout) :
    ((l.newline o).1 = [] ∨ (l.newline o).1 = [.newline]) ∧
      (l.newline o).2.indent = l.indent ∧ (l.newline o).2.depth = l.depth := by
  unfold newline
  split
  · exact ⟨.inl rfl, rfl, rfl⟩
  · exact ⟨.inr rfl, rfl, rfl⟩

theorem indent_settle (l : Layout) : l.settle.2.indent = none := by
  unfold settle
  split
  next none => exact none
  next => rfl

/-- The indentation that a lexeme leaves depends on the lexeme and the indentation before. -/
theorem indent_place (o : Options) (l : Layout) (lexeme : Lexeme) (span : Span) :
    (l.place o lexeme span).2.indent =
      match lexeme with
      | .lineBreak => some 0
      | .separator => l.indent
      | _ => none := by
  cases lexeme with
  | lineBreak => exact (newline_spec o { l with indent := some 0 }).2.1
  | separator => exact (newline_spec o l).2.1
  | _ => exact indent_settle l

theorem place_of_settles {lexeme : Lexeme} {span : Span} (h : lexeme.settles) :
    l.place o lexeme span =
      (l.settle.1 ++ (lexeme.token? o span).toList,
        l.settle.2.afterTokens (l.settle.1 ++ (lexeme.token? o span).toList)) := by
  cases lexeme with
  | lineBreak => simp [Lexeme.settles] at h
  | separator => simp [Lexeme.settles] at h
  | _ => rfl

theorem read_of_settles (h : p.settles) :
    l.read o p = (l.settle.1 ++ (p.token? o).toList,
      l.settle.2.afterTokens (l.settle.1 ++ (p.token? o).toList)) := by
  cases p with
  | marker raw m => simp [Piece.settles] at h
  | blanks raw => simp [Piece.settles] at h
  | lexeme raw found span => exact place_of_settles h

/-- A piece that settles nothing hands out a new line or nothing. -/
theorem read_of_not_settles (h : ¬ p.settles) :
    ((l.read o p).1 = [] ∨ (l.read o p).1 = [.newline]) ∧ (l.read o p).2.depth = l.depth := by
  cases p with
  | marker raw m => exact ⟨.inl rfl, rfl⟩
  | blanks raw => exact ⟨.inl rfl, rfl⟩
  | lexeme raw found span =>
    cases found with
    | lineBreak =>
      obtain ⟨handed, -, depth⟩ := newline_spec o { l with indent := some 0 }
      exact ⟨handed, depth⟩
    | separator =>
      obtain ⟨handed, -, depth⟩ := newline_spec o l
      exact ⟨handed, depth⟩
    | _ => simp [Piece.settles, Lexeme.settles] at h

theorem mem_markers {depth target : Nat} {t : Token} (h : t ∈ markers depth target) :
    t = .indentBegin ∨ t = .indentEnd := by
  unfold markers at h
  rcases List.mem_append.1 h with member | member
  · exact .inl (List.eq_of_mem_replicate member)
  · exact .inr (List.eq_of_mem_replicate member)

theorem mem_settle {t : Token} (h : t ∈ l.settle.1) : t = .indentBegin ∨ t = .indentEnd := by
  unfold settle at h
  split at h
  · simp at h
  · exact mem_markers h

theorem mem_finish {t : Token} (h : t ∈ (l.finish o).1) : t = .indentEnd := by
  unfold finish at h
  split at h
  · simp only [markers, Nat.zero_sub, List.replicate_zero, List.nil_append] at h
    exact List.eq_of_mem_replicate h
  · simp at h

theorem not_span_of_mem_settle {t : Token} (h : t ∈ l.settle.1) : ¬ t.span.isSome := by
  rcases mem_settle h with rfl | rfl <;> simp [Token.indentBegin, Token.indentEnd]

theorem filter_span_settle : l.settle.1.filter (·.span.isSome) = [] := by
  rw [List.filter_eq_nil_iff]
  exact fun t member => not_span_of_mem_settle member

/-- The tokens with a span are those that pieces have of their own. -/
theorem filter_span_read : (l.read o p).1.filter (·.span.isSome) = (p.token? o).toList := by
  by_cases settles : p.settles
  · rw [read_of_settles settles, List.filter_append, filter_span_settle, List.nil_append]
    cases own : p.token? o with
    | none => rfl
    | some t => simp [Piece.span_of_token? own]
  · have none : p.token? o = none := by
      cases own : p.token? o with
      | none => rfl
      | some t => exact absurd (Piece.settles_of_token? own) settles
    rw [none]
    rcases (read_of_not_settles settles).1 with nothing | newline
    · rw [nothing]
      rfl
    · rw [newline]
      rfl

/-- A token with a span stands right behind the markers that settle its line. -/
theorem read_split {before behind : List Token} {t : Token} (spanned : t.span.isSome)
    (h : (l.read o p).1 = before ++ t :: behind) : p.token? o = some t ∧ before = l.settle.1 := by
  by_cases settles : p.settles
  · have absent : t ∉ l.settle.1 := fun member => not_span_of_mem_settle member spanned
    rw [read_of_settles settles] at h
    obtain ⟨more, rfl, own⟩ := behind_of_not_mem absent h
    cases found : p.token? o with
    | none => simp [found] at own
    | some u =>
      rw [found, Option.toList_some] at own
      obtain ⟨rfl, same⟩ := (List.append_eq_singleton_iff.1 own.symm).resolve_right (by simp)
      obtain ⟨rfl, -⟩ := by simpa using same
      exact ⟨rfl, by simp⟩
  · have member : t ∈ (l.read o p).1 := by simp [h]
    rcases (read_of_not_settles (o := o) (l := l) settles).1 with nothing | newline
    · simp [nothing] at member
    · obtain rfl : t = .newline := by simpa [newline] using member
      simp [Token.newline] at spanned

/-- What is handed out without a span is a new line or a marker. -/
theorem kind_of_mem_read {t : Token} (h : t ∈ (l.read o p).1) (bare : ¬ t.span.isSome) :
    t = .newline ∨ t = .indentBegin ∨ t = .indentEnd := by
  by_cases settles : p.settles
  · rw [read_of_settles settles] at h
    rcases List.mem_append.1 h with mark | own
    · exact .inr (mem_settle mark)
    · exact absurd (Piece.span_of_token? (Option.mem_toList.1 own)) bare
  · rcases (read_of_not_settles (o := o) (l := l) settles).1 with nothing | newline
    · simp [nothing] at h
    · exact .inl (by simpa [newline] using h)

theorem kind_of_mem_tokens {t : Token} {pieces : List Piece} (h : t ∈ l.tokens o pieces)
    (bare : ¬ t.span.isSome) : t = .newline ∨ t = .indentBegin ∨ t = .indentEnd := by
  induction pieces generalizing l with
  | nil => simp at h
  | cons p pieces ih =>
    rw [tokens_cons] at h
    rcases List.mem_append.1 h with here | later
    · exact kind_of_mem_read here bare
    · exact ih later

/-- A token with a span is the token of a piece; before it stands what the pieces before that one
handed out, and the markers that settle its line. -/
theorem tokens_split {before behind : List Token} {t : Token} {pieces : List Piece}
    (spanned : t.span.isSome) (h : l.tokens o pieces = before ++ t :: behind) :
    ∃ read p others, pieces = read ++ p :: others ∧ p.token? o = some t ∧
      before = l.tokens o read ++ (l.after o read).settle.1 := by
  induction pieces generalizing l before with
  | nil => simp at h
  | cons p pieces ih =>
    rw [tokens_cons] at h
    have later {more : List Token}
        (same : (l.read o p).2.tokens o pieces = more ++ t :: behind) :
        ∃ read q others, p :: pieces = read ++ q :: others ∧ q.token? o = some t ∧
          (l.read o p).1 ++ more = l.tokens o read ++ (l.after o read).settle.1 := by
      obtain ⟨read, q, others, rfl, own, rfl⟩ := ih same
      exact ⟨p :: read, q, others, rfl, own, by rw [tokens_cons, after_cons, List.append_assoc]⟩
    -- Equal tokens may come from different pieces, so the place decides and not membership.
    rcases List.append_eq_append_iff.1 h with ⟨more, rfl, same⟩ | ⟨more, here, within⟩
    · exact later same
    · cases more with
      | nil =>
        rw [List.append_nil] at here
        have := @later [] (by simpa using within.symm)
        rwa [List.append_nil, here] at this
      | cons u more =>
        obtain ⟨rfl, -⟩ := by simpa using within
        obtain ⟨own, same⟩ := read_split spanned here
        exact ⟨[], p, pieces, rfl, own, by simpa using same⟩

theorem filter_span_tokens (l : Layout) (pieces : List Piece) :
    (l.tokens o pieces).filter (·.span.isSome) = pieces.filterMap (·.token? o) := by
  induction pieces generalizing l with
  | nil => rfl
  | cons p pieces ih =>
    rw [tokens_cons, List.filter_append, filter_span_read, ih]
    cases own : p.token? o with
    | none => simp [own]
    | some t => simp [own]

end Layout

/-- The blocks that the indentation opens in these tokens, less those it closes. Literal braces
carry a span and do not count. -/
def balance (tokens : List Token) : Int :=
  (tokens.countP fun t => t.kind == .blockBegin && t.span.isNone : Nat) -
    (tokens.countP fun t => t.kind == .blockEnd && t.span.isNone : Nat)

@[simp] theorem balance_nil : balance [] = 0 := rfl

theorem balance_append (first second : List Token) :
    balance (first ++ second) = balance first + balance second := by
  simp only [balance, List.countP_append]
  omega

theorem balance_singleton_of_span {t : Token} (h : t.span.isSome) : balance [t] = 0 := by
  have spanned : t.span.isNone = false := by simpa using h
  simp [balance, spanned]

theorem balance_newline : balance [.newline] = 0 := by decide

theorem balance_replicate_begin (n : Nat) : balance (List.replicate n .indentBegin) = n := by
  simp [balance, Token.indentBegin, List.countP_replicate]

theorem balance_replicate_end (n : Nat) : balance (List.replicate n .indentEnd) = -n := by
  simp [balance, Token.indentEnd, List.countP_replicate]

theorem balance_markers (depth target : Nat) :
    balance (Layout.markers depth target) = target - depth := by
  rw [Layout.markers, balance_append, balance_replicate_begin, balance_replicate_end]
  omega

/-- With `depth` blocks open before, no part of the tokens closes more blocks than are open. -/
def NeverNegative (depth : Nat) (tokens : List Token) : Prop :=
  ∀ first, first <+: tokens → 0 ≤ depth + balance first

theorem neverNegative_nil (depth : Nat) : NeverNegative depth [] := by
  intro first starts
  obtain rfl := List.prefix_nil.1 starts
  simp

theorem neverNegative_append {depth between : Nat} {first second : List Token}
    (h : NeverNegative depth first) (reached : (between : Int) = depth + balance first)
    (h' : NeverNegative between second) : NeverNegative depth (first ++ second) := by
  intro tokens starts
  rcases List.prefix_or_prefix_of_prefix starts (List.prefix_append first second) with
    within | ⟨more, rfl⟩
  · exact h tokens within
  · have behind := h' more ((List.prefix_append_right_inj first).1 starts)
    rw [balance_append]
    omega

/-- A token that is no marker leaves the balance alone. -/
theorem neverNegative_singleton {depth : Nat} {t : Token} (h : balance [t] = 0) :
    NeverNegative depth [t] := by
  intro first starts
  rcases List.prefix_cons_iff.1 starts with rfl | ⟨tail, rfl, tail_starts⟩
  · simp
  · obtain rfl := List.prefix_nil.1 tail_starts
    omega

theorem neverNegative_markers (depth target : Nat) :
    NeverNegative depth (Layout.markers depth target) := by
  have openers : NeverNegative depth (List.replicate (target - depth) .indentBegin) := by
    intro first starts
    obtain ⟨-, same⟩ := List.prefix_replicate_iff.1 starts
    rw [same, balance_replicate_begin]
    omega
  have reached : ((max depth target : Nat) : Int) =
      depth + balance (List.replicate (target - depth) .indentBegin) := by
    rw [balance_replicate_begin]
    omega
  refine neverNegative_append openers reached ?_
  intro first starts
  obtain ⟨short, same⟩ := List.prefix_replicate_iff.1 starts
  rw [same, balance_replicate_end]
  omega

namespace Layout

variable {o : Options}

theorem settle_spec (l : Layout) :
    ((l.settle.2.depth : Int) = l.depth + balance l.settle.1) ∧
      NeverNegative l.depth l.settle.1 := by
  unfold settle
  split
  · exact ⟨by simp, neverNegative_nil _⟩
  · refine ⟨?_, neverNegative_markers _ _⟩
    rw [balance_markers]
    dsimp only
    omega

theorem read_spec (o : Options) (l : Layout) (p : Piece) :
    (((l.read o p).2.depth : Int) = l.depth + balance (l.read o p).1) ∧
      NeverNegative l.depth (l.read o p).1 := by
  by_cases settles : p.settles
  · obtain ⟨reached, steady⟩ := l.settle_spec
    rw [read_of_settles settles]
    cases own : p.token? o with
    | none =>
      simp only [Option.toList_none, List.append_nil]
      exact ⟨reached, steady⟩
    | some t =>
      have still := balance_singleton_of_span (Piece.span_of_token? own)
      refine ⟨?_, neverNegative_append steady reached (neverNegative_singleton still)⟩
      simp only [Option.toList_some, balance_append, still, Int.add_zero]
      exact reached
  · obtain ⟨handed, depth⟩ := read_of_not_settles (o := o) (l := l) settles
    rw [depth]
    rcases handed with nothing | newline
    · rw [nothing]
      exact ⟨by simp, neverNegative_nil _⟩
    · rw [newline]
      exact ⟨by rw [balance_newline]; omega, neverNegative_singleton balance_newline⟩

/-- The depth is the balance of what was handed out, which is never negative on the way. -/
theorem after_spec (l : Layout) (pieces : List Piece) :
    (((l.after o pieces).depth : Int) = l.depth + balance (l.tokens o pieces)) ∧
      NeverNegative l.depth (l.tokens o pieces) := by
  induction pieces generalizing l with
  | nil => exact ⟨by simp, neverNegative_nil _⟩
  | cons p pieces ih =>
    obtain ⟨reached, steady⟩ := l.read_spec o p
    obtain ⟨behind, steady'⟩ := ih (l.read o p).2
    rw [after_cons, tokens_cons]
    refine ⟨?_, neverNegative_append steady reached steady'⟩
    rw [balance_append]
    omega

theorem finish_spec (o : Options) (l : Layout) :
    (((l.finish o).2.depth : Int) = l.depth + balance (l.finish o).1) ∧
      NeverNegative l.depth (l.finish o).1 ∧
        (l.finish o).2.depth = if o.closeBlocksAtEof then 0 else l.depth := by
  unfold finish
  split
  · refine ⟨?_, neverNegative_markers _ _, rfl⟩
    rw [balance_markers]
    dsimp only [afterTokens]
    omega
  · exact ⟨by simp, neverNegative_nil _, rfl⟩

end Layout

end DreamLexer
