import DreamLexer.Lexer.Comment

/-!
# Nested comments

The interior of a block comment is a list of symbols: openers, closers and plain characters, taken
from left to right. `interior?_eq_some_iff` says which interiors the reader finds: those in which
every opener and every closer has its partner, and which the next closer ends.
-/

namespace DreamLexer.Comment

/-- What a comment's text is made of. -/
inductive Symbol where
  | opener
  | closer
  | plain (c : Char)
deriving DecidableEq

/-- The symbol as it stands in the text. -/
def Symbol.raw : Symbol → List Char
  | .opener => ['/', '*']
  | .closer => ['*', '/']
  | .plain c => [c]

/-- The symbols of a text, taken from left to right. -/
def symbols : List Char → List Symbol
  | [] => []
  | '/' :: '*' :: rest => .opener :: symbols rest
  | '*' :: '/' :: rest => .closer :: symbols rest
  | c :: rest => .plain c :: symbols rest

/-- With `nested` comments open before, no closer comes without an opener. -/
def NeverBelow (nested : Nat) (s : List Symbol) : Prop :=
  ∀ first, first <+: s → first.count .closer ≤ first.count .opener + nested

/-- Every opener has its closer and, with `nested` comments open before, every closer its opener. -/
structure Matched (nested : Nat) (s : List Symbol) : Prop where
  never_below : NeverBelow nested s
  balanced : s.count .closer = s.count .opener + nested

/-- A closer put behind the interior ends it, and no closer inside does. -/
def Encloses (interior : List Char) : Prop :=
  ∃ s, symbols (interior ++ ['*', '/']) = s ++ [.closer] ∧ Matched 0 s

theorem flatMap_raw_symbols (text : List Char) : (symbols text).flatMap Symbol.raw = text := by
  fun_induction symbols text with
  | case1 => rfl
  | case2 rest ih => simp [Symbol.raw, ih]
  | case3 rest ih => simp [Symbol.raw, ih]
  | case4 c rest _ _ ih => simp [Symbol.raw, ih]

theorem symbols_injective {first second : List Char} (h : symbols first = symbols second) :
    first = second := by
  rw [← flatMap_raw_symbols first, h, flatMap_raw_symbols]

/-- A character that starts neither an opener nor a closer is a symbol of its own. -/
theorem symbols_plain {c : Char} {rest : List Char} (opener : ¬ (c = '/' ∧ rest.head? = some '*'))
    (closer : ¬ (c = '*' ∧ rest.head? = some '/')) :
    symbols (c :: rest) = .plain c :: symbols rest := by
  apply symbols.eq_4
  · rintro behind rfl rfl
    exact opener ⟨rfl, rfl⟩
  · rintro behind rfl rfl
    exact closer ⟨rfl, rfl⟩

/-- Two texts have the symbols of the whole if the seam makes up no symbol. -/
theorem symbols_append (first second : List Char)
    (opener : ¬ ((symbols first).getLast? = some (.plain '/') ∧ second.head? = some '*'))
    (closer : ¬ ((symbols first).getLast? = some (.plain '*') ∧ second.head? = some '/')) :
    symbols (first ++ second) = symbols first ++ symbols second := by
  fun_induction symbols first with
  | case1 => rfl
  | case2 rest ih =>
    have tail := ih (by grind) (by grind)
    simp only [List.cons_append, symbols, tail]
  | case3 rest ih =>
    have tail := ih (by grind) (by grind)
    simp only [List.cons_append, symbols, tail]
  | case4 c rest no_opener no_closer ih =>
    have tail := ih (by grind) (by grind)
    rw [List.cons_append, symbols_plain, tail, List.cons_append]
    · intro known
      rcases known with ⟨rfl, starts⟩
      cases rest with
      | nil => exact opener ⟨rfl, starts⟩
      | cons d behind =>
        obtain rfl : d = '*' := by simpa using starts
        exact no_opener behind rfl rfl
    · intro known
      rcases known with ⟨rfl, starts⟩
      cases rest with
      | nil => exact closer ⟨rfl, starts⟩
      | cons d behind =>
        obtain rfl : d = '/' := by simpa using starts
        exact no_closer behind rfl rfl

/-- The first symbols of a text are the symbols of their own text. -/
theorem symbols_flatMap_raw {text : List Char} {first behind : List Symbol}
    (h : symbols text = first ++ behind) : symbols (first.flatMap Symbol.raw) = first := by
  fun_induction symbols text generalizing first with
  | case1 =>
    obtain ⟨rfl, -⟩ := List.nil_eq_append_iff.1 h
    rfl
  | case2 rest ih =>
    cases first with
    | nil => rfl
    | cons symbol first =>
      obtain ⟨rfl, tail⟩ := List.cons.inj h
      simp [Symbol.raw, symbols, ih tail]
  | case3 rest ih =>
    cases first with
    | nil => rfl
    | cons symbol first =>
      obtain ⟨rfl, tail⟩ := List.cons.inj h
      simp [Symbol.raw, symbols, ih tail]
  | case4 c rest no_opener no_closer ih =>
    cases first with
    | nil => rfl
    | cons symbol first =>
      obtain ⟨rfl, tail⟩ := List.cons.inj h
      have whole : rest = first.flatMap Symbol.raw ++ behind.flatMap Symbol.raw := by
        rw [← flatMap_raw_symbols rest, show symbols rest = first ++ behind from tail,
          List.flatMap_append]
      have starts (d : Char) (head : (first.flatMap Symbol.raw).head? = some d) :
          ∃ others, rest = d :: others := by
        obtain ⟨others, same⟩ := List.head?_eq_some_iff.1 head
        exact ⟨others ++ behind.flatMap Symbol.raw, by rw [whole, same, List.cons_append]⟩
      rw [List.flatMap_cons, Symbol.raw, List.singleton_append, symbols_plain, ih tail]
      · intro known
        rcases known with ⟨rfl, head⟩
        obtain ⟨others, rfl⟩ := starts '*' head
        exact no_opener others rfl rfl
      · intro known
        rcases known with ⟨rfl, head⟩
        obtain ⟨others, rfl⟩ := starts '/' head
        exact no_closer others rfl rfl

section Nesting

variable {nested : Nat} {s : List Symbol}

theorem neverBelow_nil : NeverBelow nested [] := by
  intro first starts
  obtain rfl := List.prefix_nil.1 starts
  simp

/-- What is asked of a list follows from what is asked of its tail, once the head is counted. -/
theorem neverBelow_cons {head : Symbol} :
    NeverBelow nested (head :: s) ↔
      ∀ first, first <+: s →
        (head :: first).count .closer ≤ (head :: first).count .opener + nested := by
  constructor
  · intro h first starts
    exact h _ (List.cons_prefix_cons.2 ⟨rfl, starts⟩)
  · intro h first starts
    rcases List.prefix_cons_iff.1 starts with rfl | ⟨tail, rfl, starts⟩
    · simp
    · exact h tail (List.cons_prefix_cons.1 starts).2

theorem neverBelow_opener_cons : NeverBelow nested (.opener :: s) ↔ NeverBelow (nested + 1) s := by
  rw [neverBelow_cons]
  refine forall₂_congr fun first _ => ?_
  rw [List.count_cons_of_ne (by decide), List.count_cons_self]
  omega

theorem neverBelow_plain_cons {c : Char} :
    NeverBelow nested (.plain c :: s) ↔ NeverBelow nested s := by
  rw [neverBelow_cons]
  refine forall₂_congr fun first _ => ?_
  rw [List.count_cons_of_ne (by simp), List.count_cons_of_ne (by simp)]

theorem neverBelow_closer_cons : NeverBelow (nested + 1) (.closer :: s) ↔ NeverBelow nested s := by
  rw [neverBelow_cons]
  refine forall₂_congr fun first _ => ?_
  rw [List.count_cons_self, List.count_cons_of_ne (by decide)]
  omega

theorem not_neverBelow_closer_cons : ¬ NeverBelow 0 (.closer :: s) := by
  intro h
  simpa using h [.closer] (by simp)

end Nesting

theorem Matched.opener_cons {nested : Nat} {s : List Symbol} :
    Matched nested (.opener :: s) ↔ Matched (nested + 1) s := by
  constructor
  · intro known
    rcases known with ⟨below, balanced⟩
    refine ⟨neverBelow_opener_cons.1 below, ?_⟩
    rw [List.count_cons_of_ne (by decide), List.count_cons_self] at balanced
    omega
  · intro known
    rcases known with ⟨below, balanced⟩
    refine ⟨neverBelow_opener_cons.2 below, ?_⟩
    rw [List.count_cons_of_ne (by decide), List.count_cons_self]
    omega

theorem Matched.closer_cons {nested : Nat} {s : List Symbol} :
    Matched (nested + 1) (.closer :: s) ↔ Matched nested s := by
  constructor
  · intro known
    rcases known with ⟨below, balanced⟩
    refine ⟨neverBelow_closer_cons.1 below, ?_⟩
    rw [List.count_cons_self, List.count_cons_of_ne (by decide)] at balanced
    omega
  · intro known
    rcases known with ⟨below, balanced⟩
    refine ⟨neverBelow_closer_cons.2 below, ?_⟩
    rw [List.count_cons_self, List.count_cons_of_ne (by decide)]
    omega

theorem Matched.plain_cons {nested : Nat} {c : Char} {s : List Symbol} :
    Matched nested (.plain c :: s) ↔ Matched nested s := by
  constructor
  · intro known
    rcases known with ⟨below, balanced⟩
    refine ⟨neverBelow_plain_cons.1 below, ?_⟩
    rwa [List.count_cons_of_ne (by simp), List.count_cons_of_ne (by simp)] at balanced
  · intro known
    rcases known with ⟨below, balanced⟩
    refine ⟨neverBelow_plain_cons.2 below, ?_⟩
    rwa [List.count_cons_of_ne (by simp), List.count_cons_of_ne (by simp)]

theorem Matched.zero_nil : Matched 0 [] := ⟨neverBelow_nil, rfl⟩

theorem Matched.not_succ_nil {nested : Nat} : ¬ Matched (nested + 1) [] := by
  intro known
  rcases known with ⟨-, balanced⟩
  simp at balanced

/-- The interior found when `nested` comments are open inside the one that is read. -/
theorem interiorFrom_eq_some_iff {nested : Nat} {before text interior rest : List Char} :
    interiorFrom nested before text = some (interior, rest) ↔
      ∃ s, symbols text = s ++ .closer :: symbols rest ∧ Matched nested s ∧
        interior = before.reverse ++ s.flatMap Symbol.raw := by
  fun_induction interiorFrom nested before text with
  | case1 => simp [symbols]
  | case2 nested before rest' ih =>
    rw [ih]
    constructor
    · intro known
      rcases known with ⟨s, same, matched, rfl⟩
      refine ⟨.opener :: s, by simp [symbols, same], Matched.opener_cons.2 matched, ?_⟩
      simp [Symbol.raw]
    · intro known
      rcases known with ⟨s, same, matched, rfl⟩
      cases s with
      | nil => simp [symbols] at same
      | cons symbol s =>
        obtain ⟨rfl, tail⟩ := List.cons.inj same
        exact ⟨s, tail, Matched.opener_cons.1 matched, by simp [Symbol.raw]⟩
  | case3 before rest' =>
    constructor
    · rintro ⟨⟩
      exact ⟨[], rfl, Matched.zero_nil, by simp⟩
    · intro known
      rcases known with ⟨s, same, matched, rfl⟩
      cases s with
      | nil =>
        obtain ⟨-, tail⟩ := List.cons.inj same
        simp [symbols_injective tail]
      | cons symbol s =>
        obtain ⟨rfl, -⟩ := List.cons.inj same
        exact absurd matched.never_below not_neverBelow_closer_cons
  | case4 before rest' outer ih =>
    rw [ih]
    constructor
    · intro known
      rcases known with ⟨s, same, matched, rfl⟩
      refine ⟨.closer :: s, by simp [symbols, same], Matched.closer_cons.2 matched, ?_⟩
      simp [Symbol.raw]
    · intro known
      rcases known with ⟨s, same, matched, rfl⟩
      cases s with
      | nil => exact absurd matched Matched.not_succ_nil
      | cons symbol s =>
        obtain ⟨rfl, tail⟩ := List.cons.inj same
        exact ⟨s, tail, Matched.closer_cons.1 matched, by simp [Symbol.raw]⟩
  | case5 nested before c rest' no_opener no_closer ih =>
    rw [ih]
    constructor
    · intro known
      rcases known with ⟨s, same, matched, rfl⟩
      refine ⟨.plain c :: s, ?_, Matched.plain_cons.2 matched, by simp [Symbol.raw]⟩
      rw [symbols.eq_4 _ _ no_opener no_closer, same, List.cons_append]
    · intro known
      rcases known with ⟨s, same, matched, rfl⟩
      rw [symbols.eq_4 _ _ no_opener no_closer] at same
      cases s with
      | nil => simp at same
      | cons symbol s =>
        obtain ⟨rfl, tail⟩ := List.cons.inj same
        exact ⟨s, tail, Matched.plain_cons.1 matched, by simp [Symbol.raw]⟩

/-- A comment's interior is what its own closer encloses. -/
theorem interior?_eq_some_iff {text interior rest : List Char} :
    interior? text = some (interior, rest) ↔
      text = interior ++ '*' :: '/' :: rest ∧ Encloses interior := by
  rw [interior?, interiorFrom_eq_some_iff]
  constructor
  · intro known
    rcases known with ⟨s, same, matched, rfl⟩
    rw [List.reverse_nil, List.nil_append]
    constructor
    · rw [← flatMap_raw_symbols text, same, List.flatMap_append, List.flatMap_cons,
        flatMap_raw_symbols]
      rfl
    · refine ⟨s, ?_, matched⟩
      rw [List.append_cons] at same
      simpa [Symbol.raw] using symbols_flatMap_raw same
  · intro known
    rcases known with ⟨rfl, s, same, matched⟩
    have parts : symbols (interior ++ ['*', '/'] ++ rest) =
        symbols (interior ++ ['*', '/']) ++ symbols rest := by
      apply symbols_append <;> simp [same]
    refine ⟨s, by simpa [same] using parts, matched, ?_⟩
    have raw := congrArg (List.flatMap Symbol.raw) same
    rw [flatMap_raw_symbols, List.flatMap_append] at raw
    simpa using List.append_cancel_right raw

end DreamLexer.Comment
