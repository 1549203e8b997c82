import DreamLexer.Lexer.Linemarker
import DreamLexer.Proofs.Lexeme.Grammar
import Mathlib.Logic.ExistsUnique

/-!
# The grammar of linemarkers

A `Spelling` is a line that is a linemarker, put together from its parts. `linemarker_grammar` says
that the reader accepts exactly the lines with a spelling, that a line has one spelling at most, and
that every marker with a proper name has one.
-/

namespace DreamLexer

namespace Lexeme

variable {first second rest other : List Char}

theorem nextIs_append {q : Char → Prop} (filled : first ≠ []) (all : ∀ c ∈ first, q c)
    (rest : List Char) : NextIs q (first ++ rest) := by
  obtain ⟨c, tail, rfl⟩ := List.exists_cons_of_ne_nil filled
  rw [List.cons_append, nextIs_cons]
  exact all c (List.mem_cons_self ..)

/-- Where a stretch of characters of one kind ends is told by the text. -/
theorem append_inj_of_nextIs {p : Char → Bool} (same : first ++ rest = second ++ other)
    (inside : ∀ c ∈ first, p c) (inside' : ∀ c ∈ second, p c)
    (next : NextIs (fun c => ¬ p c) rest) (next' : NextIs (fun c => ¬ p c) other) :
    first = second ∧ rest = other := by
  constructor
  · rw [← takeWhile_of_nextIs inside next, same, takeWhile_of_nextIs inside' next']
  · rw [← dropWhile_of_nextIs inside next, same, dropWhile_of_nextIs inside' next']

end Lexeme

namespace Linemarker

open Lexeme

/-- A stretch of spaces and tabs, which may be empty. -/
@[ext]
structure Gap where
  text : List Char
  blank : ∀ c ∈ text, c = ' ' ∨ c = '\t'

/-- Decimal digits that write a number which fits a counter. Zeros may stand in front. -/
@[ext]
structure Numeral where
  digits : List Char
  filled : digits ≠ []
  decimal : ∀ c ∈ digits, c.isDigit
  fits : Text.decimal digits ≤ counterMax

/-- A flag behind its gap. -/
@[ext]
structure Flag where
  gap : Gap
  parted : gap.text ≠ []
  numeral : Numeral

/-- What stands behind a unit's name: flags, a gap and perhaps a carriage return. -/
@[ext]
structure Tail where
  flags : List Flag
  gap : Gap
  returns : Bool

/-- A line that is a linemarker, in its parts. -/
@[ext]
structure Spelling where
  gap : Gap
  number : Numeral
  middle : Gap
  parted : middle.text ≠ []
  unit : List Char
  named : unit ≠ []
  unquoted : quote ∉ unit
  tail : Tail

/-- The number that the digits write. -/
def Numeral.value (n : Numeral) : UInt32 :=
  .ofNatLT (Text.decimal n.digits) (Nat.lt_succ_of_le n.fits)

/-- The flag as it stands in the line. -/
def Flag.text (f : Flag) : List Char := f.gap.text ++ f.numeral.digits

/-- What may stand at the very end of a line. -/
def ending (returns : Bool) : List Char := if returns then ['\r'] else []

/-- The tail as it stands in the line. -/
def Tail.text (t : Tail) : List Char :=
  t.flags.flatMap Flag.text ++ (t.gap.text ++ ending t.returns)

theorem Tail.text_nil (gap : Gap) (returns : Bool) :
    Tail.text ⟨[], gap, returns⟩ = gap.text ++ ending returns := rfl

theorem Tail.text_cons (f : Flag) (flags : List Flag) (gap : Gap) (returns : Bool) :
    Tail.text ⟨f :: flags, gap, returns⟩ =
      f.gap.text ++ (f.numeral.digits ++ Tail.text ⟨flags, gap, returns⟩) := by
  simp [text, Flag.text]

/-- The line that is spelled. -/
def Spelling.text (s : Spelling) : List Char :=
  '#' :: (s.gap.text ++ (s.number.digits ++
    (s.middle.text ++ (quote :: (s.unit ++ (quote :: s.tail.text))))))

/-- The marker that is spelled. -/
def Spelling.marker (s : Spelling) : Linemarker where
  line := s.number.value
  unit := String.ofList s.unit
  flags := s.tail.flags.map (·.numeral.value)

section Parts

variable {rest : List Char}

theorem isGap_iff {c : Char} : isGap c ↔ c = ' ' ∨ c = '\t' := by
  simp [isGap]

theorem Gap.isGap (g : Gap) : ∀ c ∈ g.text, Linemarker.isGap c := by
  intro c member
  exact isGap_iff.2 (g.blank c member)

/-- No gap at all. -/
def Gap.none : Gap where
  text := []
  blank := List.forall_mem_nil _

/-- A single space. -/
def Gap.space : Gap where
  text := [' ']
  blank := by
    intro c member
    exact .inl (List.mem_singleton.1 member)

/-- The gap that a text starts with. -/
def Gap.before (text : List Char) : Gap where
  text := text.takeWhile Linemarker.isGap
  blank := by
    intro c member
    exact isGap_iff.1 (List.all_eq_true.1 List.all_takeWhile c member)

theorem Gap.before_append (text : List Char) :
    (Gap.before text).text ++ text.dropWhile Linemarker.isGap = text :=
  List.takeWhile_append_dropWhile

/-- Behind a first blank the gap goes on to the next word. -/
theorem Gap.before_cons_append {c : Char} (blank : Linemarker.isGap c) (text : List Char) :
    (Gap.before (c :: text)).text ++ text.dropWhile Linemarker.isGap = c :: text := by
  rw [← List.dropWhile_cons_of_pos blank, Gap.before_append]

theorem Gap.before_cons_ne_nil {c : Char} (blank : Linemarker.isGap c) (text : List Char) :
    (Gap.before (c :: text)).text ≠ [] := by
  show (c :: text).takeWhile Linemarker.isGap ≠ []
  rw [List.takeWhile_cons_of_pos blank]
  exact List.cons_ne_nil _ _

theorem Gap.dropWhile_append (g : Gap) (next : NextIs (fun c => ¬ Linemarker.isGap c) rest) :
    (g.text ++ rest).dropWhile Linemarker.isGap = rest :=
  dropWhile_of_nextIs g.isGap next

/-- No digit is a blank. -/
theorem not_isGap_of_isDigit {c : Char} (digit : c.isDigit) : ¬ Linemarker.isGap c := by
  intro blank
  rcases isGap_iff.1 blank with rfl | rfl
  · exact absurd digit (by decide)
  · exact absurd digit (by decide)

theorem Gap.not_isDigit (g : Gap) : ∀ c ∈ g.text, ¬ c.isDigit := by
  intro c member digit
  exact not_isGap_of_isDigit digit (g.isGap c member)

theorem Numeral.not_isGap (n : Numeral) : ∀ c ∈ n.digits, ¬ Linemarker.isGap c := by
  intro c member
  exact not_isGap_of_isDigit (n.decimal c member)

theorem Numeral.leadingDigits_append (n : Numeral) (next : NextIs (fun c => ¬ c.isDigit) rest) :
    Text.leadingDigits (n.digits ++ rest) = n.digits ∧
      Text.behindDigits (n.digits ++ rest) = rest :=
  ⟨takeWhile_of_nextIs n.decimal next, dropWhile_of_nextIs n.decimal next⟩

theorem Numeral.number?_digits (n : Numeral) : number? n.digits = some n.value := by
  have readable : ¬ (n.digits.isEmpty || counterMax < Text.decimal n.digits) := by
    simp [n.filled, Nat.not_lt_of_le n.fits]
  rw [number?, if_neg readable, Numeral.value, UInt32.ofNatLT_eq_ofNat]

/-- Digits with a number are a numeral. -/
theorem exists_numeral {digits : List Char} {value : UInt32} (decimal : ∀ c ∈ digits, c.isDigit)
    (read : number? digits = some value) :
    ∃ n : Numeral, n.digits = digits ∧ n.value = value := by
  unfold number? at read
  split at read
  next => simp at read
  next readable =>
    simp only [Bool.or_eq_true, List.isEmpty_iff, decide_eq_true_eq, not_or] at readable
    refine ⟨⟨digits, readable.1, decimal, Nat.le_of_not_lt readable.2⟩, rfl, ?_⟩
    rw [Numeral.value, UInt32.ofNatLT_eq_ofNat]
    exact Option.some.inj read

theorem ending_injective : Function.Injective ending := by
  intro returns returns' same
  cases returns with
  | false =>
    cases returns' with
    | false => rfl
    | true => nomatch same
  | true =>
    cases returns' with
    | false => nomatch same
    | true => rfl

theorem nextIs_ending (returns : Bool) :
    NextIs (fun c => ¬ Linemarker.isGap c ∧ ¬ c.isDigit) (ending returns) := by
  cases returns with
  | false => exact nextIs_nil
  | true => exact nextIs_cons.2 (by decide)

/-- Behind a numeral or a name no digit follows. -/
theorem Tail.nextIs (t : Tail) : NextIs (fun c => ¬ c.isDigit) t.text := by
  obtain ⟨flags, gap, returns⟩ := t
  cases flags with
  | nil =>
    rw [text_nil]
    by_cases nothing : gap.text = []
    · rw [nothing]
      intro c head
      exact (nextIs_ending returns c head).2
    · exact nextIs_append nothing gap.not_isDigit _
  | cons f flags =>
    rw [text_cons]
    exact nextIs_append f.parted f.gap.not_isDigit _

end Parts

/-- Behind a gap the line ends or a flag follows. -/
theorem flags?_gap {gap : Gap} (parted : gap.text ≠ []) {word : List Char}
    (next : NextIs (fun c => ¬ isGap c) word) :
    flags? (gap.text ++ word) =
      if word = [] ∨ word = ['\r'] then some []
      else (number? (Text.leadingDigits word)).bind fun flag =>
        (flags? (Text.behindDigits word)).map (flag :: ·) := by
  obtain ⟨text, blank⟩ := gap
  obtain ⟨c, text, rfl⟩ := List.exists_cons_of_ne_nil parted
  have inside : isGap c := isGap_iff.2 (blank c (List.mem_cons_self ..))
  have others : ∀ d ∈ text, isGap d :=
    fun d member => isGap_iff.2 (blank d (List.mem_cons_of_mem c member))
  rw [List.cons_append, flags?, if_pos inside, dropWhile_of_nextIs others next]
  by_cases last : word = [] ∨ word = ['\r']
  · rw [if_pos last, if_pos last]
  · rw [if_neg last, if_neg last]
    cases number? (Text.leadingDigits word) with
    | none => rfl
    | some flag => rfl

/-- Flags that are spelled are read. -/
theorem flags?_text (t : Tail) : flags? t.text = some (t.flags.map (·.numeral.value)) := by
  obtain ⟨flags, gap, returns⟩ := t
  induction flags with
  | nil =>
    have last : ending returns = [] ∨ ending returns = ['\r'] := by
      cases returns with
      | false => exact .inl rfl
      | true => exact .inr rfl
    rw [Tail.text_nil]
    by_cases parted : gap.text = []
    · rw [parted, List.nil_append]
      rcases last with nothing | last
      · rw [nothing, flags?]
        rfl
      · rw [last, flags?]
        rfl
    · rw [flags?_gap parted fun c head => (nextIs_ending returns c head).1]
      exact if_pos last
  | cons f flags ih =>
    have behind := (Tail.mk flags gap returns).nextIs
    rw [Tail.text_cons]
    generalize Tail.text ⟨flags, gap, returns⟩ = rest at ih behind
    have filled : ¬ (f.numeral.digits ++ rest = [] ∨ f.numeral.digits ++ rest = ['\r']) := by
      obtain ⟨d, digits, same⟩ := List.exists_cons_of_ne_nil f.numeral.filled
      have digit : d.isDigit := f.numeral.decimal d (by simp [same])
      rw [same]
      simp only [List.cons_append, List.cons.injEq, reduceCtorEq, false_or, not_and]
      rintro rfl
      exact absurd digit (by decide)
    obtain ⟨leading, left⟩ := f.numeral.leadingDigits_append behind
    rw [flags?_gap f.parted (nextIs_append f.numeral.filled f.numeral.not_isGap rest),
      if_neg filled, leading, left, f.numeral.number?_digits, ih]
    rfl

/-- Flags that are read are spelled. -/
theorem exists_tail {text : List Char} {flags : List UInt32} (read : flags? text = some flags) :
    ∃ t : Tail, t.text = text ∧ t.flags.map (·.numeral.value) = flags := by
  fun_induction flags? text generalizing flags
  next =>
    obtain rfl := Option.some.inj read
    exact ⟨⟨[], .none, false⟩, rfl, rfl⟩
  next c rest blank word last =>
    obtain rfl := Option.some.inj read
    have ends : ending (decide (word = ['\r'])) = word := by
      rcases last with nothing | last
      · simp [ending, nothing]
      · simp [ending, last]
    refine ⟨⟨[], .before (c :: rest), decide (word = ['\r'])⟩, ?_, rfl⟩
    rw [Tail.text_nil, ends, Gap.before_cons_append blank]
  next => simp at read
  next c rest blank word filled flag number ih =>
    obtain ⟨others, behind, rfl⟩ := Option.map_eq_some_iff.1 read
    obtain ⟨t, text, values⟩ := ih behind
    obtain ⟨n, digits, value⟩ : ∃ n : Numeral, n.digits = Text.leadingDigits word ∧ n.value = flag :=
      exists_numeral (fun c member => List.all_eq_true.1 List.all_takeWhile c member) number
    refine ⟨⟨⟨.before (c :: rest), Gap.before_cons_ne_nil blank rest, n⟩ :: t.flags, t.gap,
      t.returns⟩, ?_, ?_⟩
    · rw [Tail.text_cons, digits, text, Text.leadingDigits_append, Gap.before_cons_append blank]
    · rw [List.map_cons, values, value]
  next c rest blank last =>
    obtain rfl := Option.some.inj read
    obtain ⟨rfl, rfl⟩ := last
    exact ⟨⟨[], .none, true⟩, rfl, rfl⟩
  next => simp at read

/-- A tail is spelled in one way. -/
theorem Tail.text_injective : Function.Injective Tail.text := by
  rintro ⟨flags, gap, returns⟩ ⟨flags', gap', returns'⟩ same
  have last (returns : Bool) : NextIs (fun c => ¬ Linemarker.isGap c) (ending returns) :=
    fun c head => (nextIs_ending returns c head).1
  have digit_first (n : Numeral) (rest : List Char) :
      NextIs (fun c => ¬ Linemarker.isGap c) (n.digits ++ rest) :=
    nextIs_append n.filled n.not_isGap rest
  -- A flag is told from the gap at the end by the digit behind its gap.
  have apart (n : Numeral) (rest : List Char) (returns : Bool) :
      n.digits ++ rest ≠ ending returns := by
    intro same
    have digit := nextIs_append n.filled n.decimal rest
    obtain ⟨d, digits, first⟩ := List.exists_cons_of_ne_nil n.filled
    rw [same] at digit
    have head : (ending returns).head? = some d := by rw [← same, first]; rfl
    exact (nextIs_ending returns d head).2 (digit d head)
  induction flags generalizing flags' with
  | nil =>
    rw [text_nil] at same
    cases flags' with
    | nil =>
      rw [text_nil] at same
      obtain ⟨gaps, ends⟩ :=
        append_inj_of_nextIs same gap.isGap gap'.isGap (last returns) (last returns')
      obtain rfl : gap = gap' := Gap.ext gaps
      rw [ending_injective ends]
    | cons f' flags' =>
      rw [text_cons] at same
      have ends := (append_inj_of_nextIs same gap.isGap f'.gap.isGap (last returns)
        (digit_first _ _)).2
      exact absurd ends.symm (apart _ _ _)
  | cons f flags ih =>
    rw [text_cons] at same
    cases flags' with
    | nil =>
      rw [text_nil] at same
      have ends := (append_inj_of_nextIs same f.gap.isGap gap'.isGap (digit_first _ _)
        (last returns')).2
      exact absurd ends (apart _ _ _)
    | cons f' flags' =>
      rw [text_cons] at same
      obtain ⟨gaps, behind⟩ := append_inj_of_nextIs same f.gap.isGap f'.gap.isGap
        (digit_first _ _) (digit_first _ _)
      obtain ⟨digits, tails⟩ := append_inj_of_nextIs behind f.numeral.decimal f'.numeral.decimal
        (Tail.nextIs _) (Tail.nextIs _)
      obtain rfl : f = f' := Flag.ext (Gap.ext gaps) (Numeral.ext digits)
      obtain ⟨rfl, rfl, rfl⟩ := Tail.mk.inj (ih flags' tails)
      rfl

/-- The quote that opens a name stands behind a gap. -/
theorem nextIs_quote (rest : List Char) : NextIs (fun c => ¬ isGap c) (quote :: rest) :=
  nextIs_cons.2 (by decide)

/-- A name ends at the first quote. -/
theorem takeWhile_name {name : List Char} (unquoted : quote ∉ name) (rest : List Char) :
    (name ++ quote :: rest).takeWhile (· != quote) = name ∧
      (name ++ quote :: rest).dropWhile (· != quote) = quote :: rest := by
  have inside : ∀ c ∈ name, (c != quote) = true := by
    intro c member
    rw [bne_iff_ne]
    rintro rfl
    exact unquoted member
  have stops : NextIs (fun c => ¬ (c != quote) = true) (quote :: rest) := nextIs_cons.2 (by simp)
  exact ⟨takeWhile_of_nextIs inside stops, dropWhile_of_nextIs inside stops⟩

/-- A name and flags that are spelled are read. -/
theorem unitAndFlags?_text {gap : Gap} (parted : gap.text ≠ []) {name : List Char}
    (named : name ≠ []) (unquoted : quote ∉ name) (t : Tail) :
    unitAndFlags? (gap.text ++ (quote :: (name ++ (quote :: t.text)))) =
      some (String.ofList name, t.flags.map (·.numeral.value)) := by
  have opened := gap.dropWhile_append (nextIs_quote (name ++ (quote :: t.text)))
  obtain ⟨inside, closed⟩ := takeWhile_name unquoted t.text
  obtain ⟨c, blanks, first⟩ := List.exists_cons_of_ne_nil parted
  obtain ⟨d, others, rfl⟩ := List.exists_cons_of_ne_nil named
  have blank : isGap c := gap.isGap c (by simp [first])
  unfold unitAndFlags?
  rw [opened, first, List.cons_append]
  simp only [blank, and_self, if_true, inside, closed, flags?_text]
  rfl

/-- A name and flags that are read are spelled. -/
theorem exists_name {text : List Char} {unit : String} {flags : List UInt32}
    (read : unitAndFlags? text = some (unit, flags)) :
    ∃ (gap : Gap) (name : List Char) (t : Tail), gap.text ≠ [] ∧ name ≠ [] ∧ quote ∉ name ∧
      gap.text ++ (quote :: (name ++ (quote :: t.text))) = text ∧ String.ofList name = unit ∧
        t.flags.map (·.numeral.value) = flags := by
  unfold unitAndFlags? at read
  split at read
  next c rest opening named behind_gap =>
    split at read
    next opens =>
      obtain ⟨blank, rfl⟩ := opens
      split at read
      next first name closing behind inside closed =>
        obtain ⟨flags', tail, same⟩ := Option.bind_eq_some_iff.1 read
        obtain ⟨rfl, rfl⟩ := Prod.mk.inj (Option.some.inj same)
        obtain ⟨t, rfl, values⟩ := exists_tail tail
        have stops := nextIs_dropWhile (· != quote) named
        rw [closed, nextIs_cons] at stops
        obtain rfl : closing = quote := by simpa using stops
        have whole : (first :: name) ++ (quote :: t.text) = named := by
          rw [← inside, ← closed, List.takeWhile_append_dropWhile]
        refine ⟨Gap.before (c :: rest), first :: name, t, Gap.before_cons_ne_nil blank rest,
          List.cons_ne_nil _ _, ?_, ?_, rfl, values⟩
        · rw [← inside]
          intro member
          simpa using List.all_eq_true.1 List.all_takeWhile _ member
        · rw [whole, ← behind_gap, Gap.before_append]
      next => simp at read
    next => simp at read
  next => simp at read

/-- A line that is spelled is read. -/
theorem parse?_text (s : Spelling) : parse? s.text = some s.marker := by
  have digits : NextIs (fun c => ¬ isGap c)
      (s.number.digits ++ (s.middle.text ++ (quote :: (s.unit ++ (quote :: s.tail.text))))) :=
    nextIs_append s.number.filled s.number.not_isGap _
  have gap : NextIs (fun c => ¬ c.isDigit)
      (s.middle.text ++ (quote :: (s.unit ++ (quote :: s.tail.text)))) :=
    nextIs_append s.parted s.middle.not_isDigit _
  obtain ⟨leading, behind⟩ := s.number.leadingDigits_append gap
  rw [Spelling.text, parse?, if_pos rfl, s.gap.dropWhile_append digits]
  simp only [leading, behind, s.number.number?_digits,
    unitAndFlags?_text s.parted s.named s.unquoted]
  rfl

/-- A line that is read is spelled. -/
theorem exists_spelling {line : List Char} {m : Linemarker} (read : parse? line = some m) :
    ∃ s : Spelling, s.text = line ∧ s.marker = m := by
  cases line with
  | nil => simp [parse?] at read
  | cons hash text =>
    rw [parse?] at read
    split at read
    next sign =>
      subst sign
      obtain ⟨value, number, read⟩ := Option.bind_eq_some_iff.1 read
      obtain ⟨⟨unit, flags⟩, named, same⟩ := Option.bind_eq_some_iff.1 read
      obtain ⟨n, digits, rfl⟩ : ∃ n : Numeral,
          n.digits = Text.leadingDigits (text.dropWhile isGap) ∧ n.value = value :=
        exists_numeral (fun c member => List.all_eq_true.1 List.all_takeWhile c member) number
      obtain ⟨gap, name, t, parted, filled, unquoted, whole, rfl, rfl⟩ := exists_name named
      refine ⟨⟨Gap.before text, n, gap, parted, name, filled, unquoted, t⟩, ?_, Option.some.inj same⟩
      rw [Spelling.text, whole, digits, Text.leadingDigits_append, Gap.before_append]
    next => simp at read

/-- A line is spelled in one way. -/
theorem Spelling.text_injective : Function.Injective Spelling.text := by
  intro s s' same
  rw [text, text] at same
  have digit_first (s : Spelling) (rest : List Char) :
      NextIs (fun c => ¬ Linemarker.isGap c) (s.number.digits ++ rest) :=
    nextIs_append s.number.filled s.number.not_isGap rest
  have gap_first (s : Spelling) (rest : List Char) :
      NextIs (fun c => ¬ c.isDigit) (s.middle.text ++ rest) :=
    nextIs_append s.parted s.middle.not_isDigit rest
  obtain ⟨gaps, behind⟩ := append_inj_of_nextIs (List.cons.inj same).2 s.gap.isGap s'.gap.isGap
    (digit_first s _) (digit_first s' _)
  obtain ⟨digits, behind⟩ := append_inj_of_nextIs behind s.number.decimal s'.number.decimal
    (gap_first s _) (gap_first s' _)
  obtain ⟨middles, behind⟩ := append_inj_of_nextIs behind s.middle.isGap s'.middle.isGap
    (nextIs_quote _) (nextIs_quote _)
  have named := (List.cons.inj behind).2
  have units : s.unit = s'.unit := by
    rw [← (takeWhile_name s.unquoted s.tail.text).1, named,
      (takeWhile_name s'.unquoted s'.tail.text).1]
  rw [units] at named
  have tails : s.tail = s'.tail :=
    Tail.text_injective (List.cons.inj (List.append_cancel_left named)).2
  exact Spelling.ext (Gap.ext gaps) (Numeral.ext digits) (Gap.ext middles) units tails

/-- Every counter has a numeral. -/
theorem exists_numeral_of_value (value : UInt32) : ∃ n : Numeral, n.value = value := by
  have decimal : Text.decimal (Nat.toDigits 10 value.toNat) = value.toNat :=
    Nat.ofDigitChars_ten_toDigits
  have fits : value.toNat ≤ counterMax := Nat.le_of_lt_succ value.toNat_lt
  refine ⟨⟨Nat.toDigits 10 value.toNat, Nat.toDigits_ne_nil,
    fun c member => Nat.isDigit_of_mem_toDigits (by decide) (by decide) member,
    Nat.le_trans (Nat.le_of_eq decimal) fits⟩, ?_⟩
  rw [← UInt32.toNat_inj, Numeral.value, UInt32.toNat_ofNatLT]
  exact decimal

/-- Every marker whose unit has a proper name is spelled by some line. -/
theorem exists_spelling_of_marker {m : Linemarker} (named : m.unit.toList ≠ [])
    (unquoted : quote ∉ m.unit.toList) : ∃ s : Spelling, s.marker = m := by
  obtain ⟨number, line⟩ := exists_numeral_of_value m.line
  obtain ⟨flags, values⟩ : ∃ flags : List Flag, flags.map (·.numeral.value) = m.flags := by
    induction m.flags with
    | nil => exact ⟨[], rfl⟩
    | cons flag flags ih =>
      obtain ⟨others, values⟩ := ih
      obtain ⟨n, value⟩ := exists_numeral_of_value flag
      refine ⟨⟨.space, List.cons_ne_nil _ _, n⟩ :: others, ?_⟩
      rw [List.map_cons, value, values]
  refine ⟨⟨.space, number, .space, List.cons_ne_nil _ _, m.unit.toList, named, unquoted,
    ⟨flags, .none, false⟩⟩, ?_⟩
  rw [Spelling.marker, line, values, String.ofList_toList]

/-- The reader accepts exactly the lines that are spelled as linemarkers, and reads the marker that
is spelled. A line is spelled in one way at most, so that a marker is read back from every line that
spells it, and there is such a line just if the unit's name is not empty and holds no quote. -/
theorem linemarker_grammar :
    (∀ line m, parse? line = some m ↔ ∃ s : Spelling, s.text = line ∧ s.marker = m) ∧
      Function.Injective Spelling.text ∧
      (∀ s : Spelling, parse? s.text = some s.marker) ∧
      ∀ m : Linemarker, (∃ s : Spelling, s.marker = m) ↔
        m.unit.toList ≠ [] ∧ quote ∉ m.unit.toList := by
  refine ⟨?_, Spelling.text_injective, parse?_text, ?_⟩
  · intro line m
    constructor
    · exact exists_spelling
    · rintro ⟨s, rfl, rfl⟩
      exact parse?_text s
  · intro m
    constructor
    · rintro ⟨s, rfl⟩
      rw [Spelling.marker, String.toList_ofList]
      exact ⟨s.named, s.unquoted⟩
    · rintro ⟨named, unquoted⟩
      exact exists_spelling_of_marker named unquoted

/-- A numeral may start with a zero, and a carriage return may stand at the end. -/
theorem linemarker_grammar_of_flagged_line :
    ∃! s : Spelling, s.text = "# 07 \x22b.dm\x22 1\r".toList ∧ s.marker = ⟨7, "b.dm", [1]⟩ := by
  obtain ⟨accepts, once, -, -⟩ := linemarker_grammar
  obtain ⟨s, text, marker⟩ :=
    (accepts "# 07 \x22b.dm\x22 1\r".toList ⟨7, "b.dm", [1]⟩).1 (by decide +kernel)
  exact ⟨s, ⟨text, marker⟩, fun s' spelled => once (spelled.1.trans text.symm)⟩

end Linemarker

end DreamLexer
