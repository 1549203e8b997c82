import DreamLexer.Proofs.Lexeme.Unread

/-!
# Where a comment ends

A comment ends with the shortest list of symbols behind its opener that holds one closer more than
openers: `interior?_of_closing`. The reader finds that list by counting the comments that are open,
and a counter of 32 bits is enough for any text shorter than its range: `countedInterior_eq`.
-/

namespace DreamLexer.Comment

/-- The symbols hold one closer more than openers. -/
def Surplus (first : List Symbol) : Prop := first.count .closer = first.count .opener + 1

/-- The shortest first symbols of a text with one closer more than openers, and the text behind
them. -/
structure Closing (text : List Char) (first : List Symbol) (rest : List Char) : Prop where
  split : text = first.flatMap Symbol.raw ++ rest
  starts : first <+: symbols text
  surplus : Surplus first
  least : ∀ other, other <+: symbols text → Surplus other → first.length ≤ other.length

variable {text rest : List Char} {first : List Symbol}

/-- The symbols up to the closer that was found are the shortest ones that close the comment. -/
theorem closing_of_interior? {interior : List Char} (h : interior? text = some (interior, rest)) :
    ∃ s, Closing text (s ++ [.closer]) rest ∧ interior = s.flatMap Symbol.raw := by
  obtain ⟨s, same, matched, rfl⟩ := interiorFrom_eq_some_iff.1 h
  have whole : symbols text = (s ++ [.closer]) ++ symbols rest := by simp [same]
  refine ⟨s, ⟨?_, ?_, ?_, ?_⟩, by simp⟩
  · have raw := congrArg (List.flatMap Symbol.raw) whole
    rwa [List.flatMap_append, flatMap_raw_symbols, flatMap_raw_symbols] at raw
  · exact ⟨symbols rest, whole.symm⟩
  · have balanced := matched.balanced
    simp only [Surplus, List.count_append, List.count_singleton_self]
    rw [List.count_singleton, if_neg (by decide)]
    omega
  · intro other starts surplus
    rw [same] at starts
    by_cases short : other.length ≤ s.length
    · have inside : other <+: s := List.prefix_of_prefix_length_le starts (List.prefix_append _ _) short
      have below := matched.never_below other inside
      rw [Surplus] at surplus
      omega
    · rw [List.length_append, List.length_singleton]
      omega

/-- A comment is closed if some of its first symbols hold a closer too many. -/
theorem interior?_ne_none (starts : first <+: symbols text) (surplus : Surplus first) :
    interior? text ≠ none := by
  intro unclosed
  have below := interiorFrom_eq_none_iff.1 unclosed first starts
  rw [Surplus] at surplus
  omega

/-- Two lists of first symbols that are the shortest to close a comment are the same. -/
theorem Closing.unique {other : List Symbol} {rest' : List Char} (closing : Closing text first rest)
    (closing' : Closing text other rest') : first = other ∧ rest = rest' := by
  have length : first.length = other.length := Nat.le_antisymm
    (closing.least other closing'.starts closing'.surplus)
    (closing'.least first closing.starts closing.surplus)
  have start : first <+: other :=
    List.prefix_of_prefix_length_le closing.starts closing'.starts (Nat.le_of_eq length)
  have same : first = other := start.eq_of_length length
  subst same
  exact ⟨rfl, List.append_cancel_left (closing.split.symm.trans closing'.split)⟩

/-- The interior is what stands before the last symbol of the shortest list that closes the
comment, which is a closer. -/
theorem interior?_of_closing (closing : Closing text first rest) :
    first.getLast? = some .closer ∧
      interior? text = some (first.dropLast.flatMap Symbol.raw, rest) := by
  obtain ⟨⟨interior, behind⟩, found⟩ :=
    Option.ne_none_iff_exists'.1 (interior?_ne_none closing.starts closing.surplus)
  obtain ⟨s, closing', rfl⟩ := closing_of_interior? found
  obtain ⟨rfl, rfl⟩ := closing.unique closing'
  refine ⟨List.getLast?_concat, ?_⟩
  rw [found, List.dropLast_concat]

theorem exists_closing (starts : first <+: symbols text) (surplus : Surplus first) :
    ∃ shortest rest, Closing text shortest rest := by
  obtain ⟨⟨interior, rest⟩, found⟩ :=
    Option.ne_none_iff_exists'.1 (interior?_ne_none starts surplus)
  obtain ⟨s, closing, -⟩ := closing_of_interior? found
  exact ⟨_, rest, closing⟩

/-- A closer more is the partner of an opener more. -/
theorem Matched.concat_closer {nested : Nat} {s : List Symbol} (matched : Matched nested s) :
    Matched (nested + 1) (s ++ [.closer]) := by
  have closers : (s ++ [Symbol.closer]).count .closer = s.count .closer + 1 := by
    rw [List.count_append, List.count_singleton_self]
  have openers : (s ++ [Symbol.closer]).count .opener = s.count .opener := by
    rw [List.count_append, List.count_singleton, if_neg (by decide), Nat.add_zero]
  have balanced := matched.balanced
  constructor
  · intro first starts
    rcases List.prefix_concat_iff.1 starts with rfl | inside
    · rw [closers, openers]
      omega
    · exact Nat.le_succ_of_le (matched.never_below first inside)
  · rw [closers, openers]
    omega

/-- A comment whose text encloses itself can stand inside another one. -/
theorem Encloses.nested {inner : List Char} (h : Encloses inner) :
    Encloses (['/', '*'] ++ inner ++ ['*', '/']) := by
  obtain ⟨s, same, matched⟩ := h
  have seam : symbols (inner ++ ['*', '/'] ++ ['*', '/']) = s ++ [.closer] ++ [.closer] := by
    rw [symbols_append, same]
    · rfl
    · simp [same]
    · simp [same]
  refine ⟨.opener :: (s ++ [.closer]), ?_, Matched.opener_cons.2 matched.concat_closer⟩
  have opened : symbols (['/', '*'] ++ inner ++ ['*', '/'] ++ ['*', '/']) =
      .opener :: symbols (inner ++ ['*', '/'] ++ ['*', '/']) := by
    simp [symbols]
  rw [opened, seam, List.cons_append]

theorem interior?_nested {inner : List Char}
    (h : interior? (inner ++ ['*', '/']) = some (inner, [])) :
    interior? (['/', '*'] ++ inner ++ ['*', '/'] ++ ['*', '/']) =
      some (['/', '*'] ++ inner ++ ['*', '/'], []) :=
  interior?_eq_some_iff.2 ⟨rfl, (interior?_eq_some_iff.1 h).2.nested⟩

/-- What a counter cannot do. -/
inductive CounterFault where
  | overflow
  | underflow
deriving DecidableEq

/-- The reader with a counter of 32 bits for the comments that are open, this one included. It stops
where the counter would leave its range. -/
def countedInteriorFrom (depth : UInt32) (before : List Char) :
    List Char → Except CounterFault (Option (List Char × List Char))
  | [] => .ok none
  | '/' :: '*' :: rest =>
    if depth.toNat + 1 = UInt32.size then .error .overflow
    else countedInteriorFrom (depth + 1) ('*' :: '/' :: before) rest
  | '*' :: '/' :: rest =>
    if depth = 0 then .error .underflow
    else if depth - 1 = 0 then .ok (some (before.reverse, rest))
    else countedInteriorFrom (depth - 1) ('/' :: '*' :: before) rest
  | c :: rest => countedInteriorFrom depth (c :: before) rest

/-- Reads a block comment behind its opener with a counter of 32 bits. -/
def countedInterior (text : List Char) : Except CounterFault (Option (List Char × List Char)) :=
  countedInteriorFrom 1 [] text

theorem countedInteriorFrom_plain {c : Char} {depth : UInt32} {before rest : List Char}
    (no_opener : ∀ behind, c = '/' → rest = '*' :: behind → False)
    (no_closer : ∀ behind, c = '*' → rest = '/' :: behind → False) :
    countedInteriorFrom depth before (c :: rest) = countedInteriorFrom depth (c :: before) rest :=
  countedInteriorFrom.eq_4 _ _ _ _ no_opener no_closer

/-- With room for the rest of the text the counter is one ahead of the comments nested inside, and
never leaves its range. -/
theorem countedInteriorFrom_eq {nested : Nat} {before : List Char} {depth : UInt32}
    (count : depth.toNat = nested + 1) (room : nested + 1 + text.length < UInt32.size) :
    countedInteriorFrom depth before text = .ok (interiorFrom nested before text) := by
  fun_induction interiorFrom nested before text generalizing depth with
  | case1 => rfl
  | case2 nested before rest ih =>
    simp only [List.length_cons] at room
    have next : (depth + 1).toNat = nested + 1 + 1 := by
      rw [UInt32.toNat_add, count]
      exact Nat.mod_eq_of_lt (show nested + 1 + 1 < UInt32.size by omega)
    rw [countedInteriorFrom, if_neg (by omega)]
    exact ih next (by omega)
  | case3 before rest =>
    have one : depth = 1 := UInt32.toNat_inj.1 count
    subst one
    rfl
  | case4 before rest outer ih =>
    simp only [List.length_cons] at room
    have open_comment : depth ≠ 0 := by
      rintro rfl
      simp at count
    have next : (depth - 1).toNat = outer + 1 := by
      have below : 1 ≤ depth := UInt32.le_iff_toNat_le.2 (by rw [count]; exact Nat.le_add_left 1 _)
      rw [UInt32.toNat_sub_of_le depth 1 below, count]
      rfl
    have open_behind : depth - 1 ≠ 0 := by
      intro closed
      rw [closed] at next
      simp at next
    rw [countedInteriorFrom, if_neg open_comment, if_neg open_behind]
    exact ih next (by omega)
  | case5 nested before c rest no_opener no_closer ih =>
    rw [countedInteriorFrom_plain no_opener no_closer]
    simp only [List.length_cons] at room
    exact ih count (by omega)

/-- The reader of a text that is shorter than the counter's range never meets its ends. -/
theorem countedInterior_eq (room : text.length + 1 < UInt32.size) :
    countedInterior text = .ok (interior? text) :=
  countedInteriorFrom_eq rfl (by omega)

end DreamLexer.Comment
