import DreamLexer.Lexer.Lexeme
import DreamLexer.Proofs.Lexeme.Comment
import DreamLexer.Proofs.Lexeme.Literal
import DreamLexer.Proofs.Text.Delimited

/-!
# The lexical grammar

`Lexeme.Spelled` says how each lexeme is spelled and what may follow it, without reference to a
reader. `read_eq_ok_iff` says that the reader accepts exactly this grammar: what it reads is spelled
so, and what is spelled so is read. A text therefore starts with at most one lexeme.
-/

namespace DreamLexer.Lexeme

/-- Whether the character that comes next, if there is one, is as asked. -/
def NextIs (p : Char → Prop) (rest : List Char) : Prop := ∀ c, rest.head? = some c → p c

/-- The ways to spell a lexeme in front of `rest`. -/
def Spelled (raw rest : List Char) : Lexeme → Prop
  | .lineBreak => raw = ['\n']
  | .separator => raw = [';']
  | .comment text =>
    (raw = ['/', '/'] ++ text ∧ '\n' ∉ text ∧ NextIs (· = '\n') rest) ∨
      (raw = ['/', '*'] ++ text ++ ['*', '/'] ∧ Comment.Encloses text)
  | .word text =>
    raw = text ∧ text ≠ [] ∧ (∀ c ∈ text, isWordPart c) ∧ NextIs (fun c => ¬ isWordPart c) rest
  | .literal quote text =>
    ∃ pieces, raw = [quote.char] ++ Literal.raw pieces ++ [quote.char] ∧
      text = Literal.value pieces ∧ ∀ p ∈ pieces, p.FitsIn quote
  | .punctuation kind =>
    kind ≠ .newline ∧ (raw, kind) ∈ TokenKind.punctuation ∧
      (∀ spelling other, (spelling, other) ∈ TokenKind.punctuation → spelling <+: raw ++ rest →
        spelling.length ≤ raw.length) ∧
      (kind = .slash → NextIs (fun c => c ≠ '/' ∧ c ≠ '*') rest)

theorem nextIs_nil {p : Char → Prop} : NextIs p [] := by
  intro c head
  simp at head

theorem nextIs_cons {p : Char → Prop} {c : Char} {rest : List Char} :
    NextIs p (c :: rest) ↔ p c := by
  simp [NextIs]

theorem nextIs_dropWhile (p : Char → Bool) (text : List Char) :
    NextIs (fun c => ¬ p c) (text.dropWhile p) := by
  intro c head
  have stops := List.head?_dropWhile_not p text
  rw [head] at stops
  simpa using stops

theorem takeWhile_of_nextIs {p : Char → Bool} {text rest : List Char} (inside : ∀ c ∈ text, p c)
    (next : NextIs (fun c => ¬ p c) rest) : (text ++ rest).takeWhile p = text :=
  (Text.takeWhile_dropWhile_of_stops inside fun c first => by simpa using next c first).1

theorem dropWhile_of_nextIs {p : Char → Bool} {text rest : List Char} (inside : ∀ c ∈ text, p c)
    (next : NextIs (fun c => ¬ p c) rest) : (text ++ rest).dropWhile p = rest :=
  (Text.takeWhile_dropWhile_of_stops inside fun c first => by simpa using next c first).2

section Punctuation

/-- No spelling of the table starts another one. -/
theorem punctuation_prefix_free :
    ∀ first ∈ TokenKind.punctuation, ∀ second ∈ TokenKind.punctuation,
      first.1 <+: second.1 → first = second := by
  decide

/-- No punctuation starts like a blank, a line break, a literal or a word. -/
theorem punctuation_head :
    ∀ entry ∈ TokenKind.punctuation, ∃ c ∈ entry.1.head?,
      c ≠ '\n' ∧ c ≠ ' ' ∧ Quote.ofChar? c = none ∧ isWordPart c = false := by
  have table : ∀ entry ∈ TokenKind.punctuation, entry.1.head?.any fun c =>
      c ≠ '\n' ∧ c ≠ ' ' ∧ Quote.ofChar? c = none ∧ isWordPart c = false := by decide
  intro entry member
  simpa [Option.any_eq_true] using table entry member

/-- No spelling of the table breaks a line. -/
theorem punctuation_line :
    ∀ entry ∈ TokenKind.punctuation, '\n' ∉ entry.1 ∧ '\r' ∉ entry.1 := by
  decide

variable {text : List Char} {first second : List Char × TokenKind}

/-- A text starts with at most one spelling of the table. -/
theorem punctuation_unique (one : first ∈ TokenKind.punctuation)
    (two : second ∈ TokenKind.punctuation) (starts : first.1 <+: text)
    (starts' : second.1 <+: text) : first = second := by
  rcases List.prefix_or_prefix_of_prefix starts starts' with shorter | shorter
  · exact punctuation_prefix_free _ one _ two shorter
  · exact (punctuation_prefix_free _ two _ one shorter).symm

theorem find?_punctuation (member : first ∈ TokenKind.punctuation) (starts : first.1 <+: text) :
    TokenKind.punctuation.find? (fun entry => entry.1.isPrefixOf text) = some first := by
  have fits := List.isPrefixOf_iff_prefix.2 starts
  cases found : TokenKind.punctuation.find? (fun entry => entry.1.isPrefixOf text) with
  | none => exact absurd fits (List.find?_eq_none.1 found _ member)
  | some entry =>
    have starts' := List.find?_some found
    rw [List.isPrefixOf_iff_prefix] at starts'
    rw [punctuation_unique (List.mem_of_find?_eq_some found) member starts' starts]

end Punctuation

/-- Punctuation is read off the table. -/
theorem readPunctuation_eq_ok_iff {c : Char} {rest : List Char} {r : Reading} :
    readPunctuation c rest = .ok r ↔
      r.raw ++ r.rest = c :: rest ∧
        ∃ kind, (r.raw, kind) ∈ TokenKind.punctuation ∧ r.lexeme = ofPunctuation kind := by
  constructor
  · intro h
    refine ⟨(readPunctuation_splits h).append, ?_⟩
    unfold readPunctuation at h
    split at h
    next spelling kind found =>
      obtain rfl := by simpa using h
      exact ⟨kind, List.mem_of_find?_eq_some found, rfl⟩
    next => simp at h
  · intro known
    rcases known with ⟨whole, kind, member, same⟩
    have starts : r.raw <+: c :: rest := ⟨r.rest, whole⟩
    have found := find?_punctuation member starts
    rw [readPunctuation]
    simp only [found, ← same]
    rw [← whole, List.drop_left]

theorem readToken_sound {c : Char} {rest : List Char} {r : Reading} (h : readToken c rest = .ok r)
    (slash : c = '/' → NextIs (fun d => d ≠ '/' ∧ d ≠ '*') rest) :
    r.lexeme.Spelled r.raw r.rest := by
  unfold readToken at h
  cases quoted : Quote.ofChar? c with
  | some quote =>
    simp only [quoted, readLiteral] at h
    cases body : Literal.body? quote rest with
    | none => simp [body] at h
    | some found =>
      obtain ⟨pieces, behind⟩ := found
      obtain rfl := by simpa [body] using h
      exact ⟨pieces, rfl, rfl, (Literal.body?_eq_some_iff.1 body).2⟩
  | none =>
    simp only [quoted] at h
    by_cases part : isWordPart c
    · obtain rfl := by simpa [part] using h
      refine ⟨rfl, by simp, ?_, nextIs_dropWhile isWordPart rest⟩
      intro d member
      rcases List.mem_cons.1 member with rfl | member
      · exact part
      · exact List.all_eq_true.1 List.all_takeWhile d member
    · rw [if_neg part, readPunctuation_eq_ok_iff] at h
      obtain ⟨whole, kind, member, same⟩ := h
      rw [same, ofPunctuation]
      split
      next newline =>
        subst newline
        have raw : r.raw = [';'] := by simpa [TokenKind.punctuation] using member
        exact raw
      next other =>
        refine ⟨other, member, ?_, ?_⟩
        · intro spelling kind' member' starts
          have starts' : r.raw <+: r.raw ++ r.rest := List.prefix_append _ _
          have unique := punctuation_unique member member' starts' starts
          exact Nat.le_of_eq (congrArg (fun entry => entry.1.length) unique).symm
        · intro same
          subst same
          have raw : r.raw = ['/'] := by simpa [TokenKind.punctuation] using member
          rw [raw, List.singleton_append] at whole
          obtain ⟨rfl, rfl⟩ := List.cons.inj whole
          exact slash rfl

/-- What the reader reads is spelled as the grammar says. -/
theorem read_sound {c : Char} {rest : List Char} {r : Reading} (h : read c rest = .ok r) :
    r.lexeme.Spelled r.raw r.rest := by
  unfold read at h
  split at h
  next newline =>
    subst newline
    obtain rfl := by simpa using h
    rfl
  split at h
  next => simp at h
  split at h
  next second behind _ _ =>
    unfold readComment? at h
    split at h
    next star =>
      subst star
      cases found : Comment.interior? behind with
      | none => simp [found] at h
      | some pair =>
        obtain ⟨interior, rest⟩ := pair
        obtain rfl := by simpa [found] using h
        exact Or.inr ⟨rfl, (Comment.interior?_eq_some_iff.1 found).2⟩
    next star =>
      split at h
      next slash =>
        subst slash
        obtain rfl := by simpa using h
        refine Or.inl ⟨rfl, ?_, ?_⟩
        · intro member
          simpa using List.all_eq_true.1 List.all_takeWhile _ member
        · simpa [NextIs] using nextIs_dropWhile (· != '\n') behind
      next slash => exact readToken_sound (by simpa using h) (fun _ => nextIs_cons.2 ⟨slash, star⟩)
  next slash =>
    apply readToken_sound h
    intro same
    cases rest with
    | nil => exact nextIs_nil
    | cons second behind => exact absurd rfl (slash second behind same)

/-- Words are made of the letters and digits of ASCII and of underscores. -/
theorem isWordPart_iff {c : Char} :
    isWordPart c ↔ ('A' ≤ c ∧ c ≤ 'Z') ∨ ('a' ≤ c ∧ c ≤ 'z') ∨ ('0' ≤ c ∧ c ≤ '9') ∨ c = '_' := by
  have upper : c.isUpper = true ↔ 'A' ≤ c ∧ c ≤ 'Z' := decide_eq_true_iff
  have lower : c.isLower = true ↔ 'a' ≤ c ∧ c ≤ 'z' :=
    Bool.and_eq_true_iff.trans (and_congr decide_eq_true_iff decide_eq_true_iff)
  have digit : c.isDigit = true ↔ '0' ≤ c ∧ c ≤ '9' :=
    Bool.and_eq_true_iff.trans (and_congr decide_eq_true_iff decide_eq_true_iff)
  have letter : c.isAlpha = true ↔ c.isUpper = true ∨ c.isLower = true := Bool.or_eq_true_iff
  have alphanum : c.isAlphanum = true ↔ c.isAlpha = true ∨ c.isDigit = true :=
    Bool.or_eq_true_iff
  rw [isWordPart, Bool.or_eq_true, alphanum, letter, upper, lower, digit, beq_iff_eq, or_assoc,
    or_assoc]

/-- What comes before the digits stands in no word. -/
theorem ne_of_isWordPart {c d : Char} (part : isWordPart c) (below : d < '0') : c ≠ d := by
  rintro rfl
  have digits_first : '0' ≤ c := by
    rcases isWordPart_iff.1 part with ⟨upper, -⟩ | ⟨lower, -⟩ | ⟨digit, -⟩ | rfl
    · exact Char.le_trans (by decide) upper
    · exact Char.le_trans (by decide) lower
    · exact digit
    · decide
  exact Char.not_lt.2 digits_first below

/-- What a word's characters are not. -/
theorem special_of_isWordPart {c : Char} (part : isWordPart c) :
    c ≠ '\n' ∧ c ≠ ' ' ∧ c ≠ '/' ∧ Quote.ofChar? c = none := by
  have newline : c ≠ '\n' := ne_of_isWordPart part (by decide)
  have space : c ≠ ' ' := ne_of_isWordPart part (by decide)
  have slash : c ≠ '/' := ne_of_isWordPart part (by decide)
  refine ⟨newline, space, slash, ?_⟩
  cases quoted : Quote.ofChar? c with
  | none => rfl
  | some quote =>
    have same : quote.char = c := ofChar?_char quoted
    have below : quote.char < '0' := by cases quote <;> decide
    exact absurd same.symm (ne_of_isWordPart part below)

/-- A text that starts like none of the special cases is read as a word, literal or punctuation. -/
theorem read_eq_readToken {c : Char} {rest : List Char} (newline : c ≠ '\n') (space : c ≠ ' ')
    (slash : c = '/' → NextIs (fun d => d ≠ '/' ∧ d ≠ '*') rest) :
    read c rest = readToken c rest := by
  unfold read
  rw [if_neg newline, if_neg space]
  split
  next second behind _ =>
    obtain ⟨no_slash, no_star⟩ := nextIs_cons.1 (slash rfl)
    simp [readComment?, no_slash, no_star]
  next => rfl

theorem read_punctuation {c : Char} {raw rest behind : List Char} {kind : TokenKind}
    (member : (raw, kind) ∈ TokenKind.punctuation) (whole : raw ++ rest = c :: behind)
    (slash : kind = .slash → NextIs (fun d => d ≠ '/' ∧ d ≠ '*') rest) :
    read c behind = .ok ⟨ofPunctuation kind, raw, rest⟩ := by
  obtain ⟨d, head, newline, space, quoted, part⟩ := punctuation_head _ member
  obtain ⟨tail, rfl⟩ : ∃ tail, raw = d :: tail := List.head?_eq_some_iff.1 head
  obtain ⟨rfl, rfl⟩ := List.cons.inj whole
  rw [read_eq_readToken newline space, readToken, quoted]
  · simp only [part, Bool.false_eq_true, if_false]
    exact readPunctuation_eq_ok_iff.2 ⟨whole, kind, member, rfl⟩
  · intro same
    subst same
    have alone : tail = [] ∧ kind = .slash := by simpa [TokenKind.punctuation] using member
    obtain ⟨rfl, rfl⟩ := alone
    exact slash rfl

/-- What is spelled as the grammar says is read. -/
theorem read_complete {lexeme : Lexeme} {c : Char} {raw rest behind : List Char}
    (whole : raw ++ rest = c :: behind) (h : lexeme.Spelled raw rest) :
    read c behind = .ok ⟨lexeme, raw, rest⟩ := by
  cases lexeme with
  | lineBreak =>
    obtain rfl : raw = ['\n'] := h
    obtain ⟨rfl, rfl⟩ := List.cons.inj whole
    rfl
  | separator =>
    obtain rfl : raw = [';'] := h
    have member : ([';'], TokenKind.newline) ∈ TokenKind.punctuation := by decide
    exact read_punctuation member whole (fun same => by simp at same)
  | comment text =>
    rcases h with ⟨rfl, inside, next⟩ | ⟨rfl, encloses⟩
    · obtain ⟨rfl, rfl⟩ := List.cons.inj whole
      have before : ∀ d ∈ text, (d != '\n') = true := by
        intro d member
        rw [bne_iff_ne]
        intro same
        subst same
        exact inside member
      have stops : NextIs (fun d => ¬ (d != '\n') = true) rest := by simpa [NextIs] using next
      simp [read, readComment?, Comment.lineRest, takeWhile_of_nextIs before stops,
        dropWhile_of_nextIs before stops]
    · have found : Comment.interior? (text ++ '*' :: '/' :: rest) = some (text, rest) :=
        Comment.interior?_eq_some_iff.2 ⟨rfl, encloses⟩
      obtain ⟨rfl, rfl⟩ := List.cons.inj whole
      simp [read, readComment?, found]
  | word text =>
    obtain ⟨rfl, filled, inside, next⟩ := h
    obtain ⟨d, tail, rfl⟩ := List.exists_cons_of_ne_nil filled
    obtain ⟨rfl, rfl⟩ := List.cons.inj whole
    obtain ⟨part, inside⟩ := List.forall_mem_cons.1 inside
    obtain ⟨newline, space, slash, quoted⟩ := special_of_isWordPart part
    rw [read_eq_readToken newline space (fun same => absurd same slash), readToken, quoted]
    simp [part, takeWhile_of_nextIs inside next, dropWhile_of_nextIs inside next]
  | literal quote text =>
    obtain ⟨pieces, rfl, rfl, fits⟩ := h
    have body : Literal.body? quote (Literal.raw pieces ++ quote.char :: rest) =
        some (pieces, rest) := Literal.body?_eq_some_iff.2 ⟨rfl, fits⟩
    obtain ⟨rfl, rfl⟩ := List.cons.inj whole
    have plain : quote.char ≠ '\n' ∧ quote.char ≠ ' ' ∧ quote.char ≠ '/' := by
      cases quote <;> decide
    rw [read_eq_readToken plain.1 plain.2.1 (fun same => absurd same plain.2.2), readToken,
      Quote.ofChar?_char]
    simp [readLiteral, body]
  | punctuation kind =>
    obtain ⟨other, member, -, slash⟩ := h
    rw [read_punctuation member whole slash, ofPunctuation, if_neg other]

/-- The reader accepts exactly the grammar. -/
theorem read_eq_ok_iff {c : Char} {behind : List Char} {r : Reading} :
    read c behind = .ok r ↔ r.raw ++ r.rest = c :: behind ∧ r.lexeme.Spelled r.raw r.rest := by
  constructor
  · intro h
    exact ⟨read_append h, read_sound h⟩
  · intro known
    rcases known with ⟨whole, spelled⟩
    exact read_complete whole spelled

namespace Spelled

variable {lexeme : Lexeme} {raw rest : List Char}

theorem ne_nil (h : lexeme.Spelled raw rest) : raw ≠ [] := by
  cases lexeme with
  | lineBreak => simp [show raw = ['\n'] from h]
  | separator => simp [show raw = [';'] from h]
  | comment text => rcases h with ⟨rfl, -⟩ | ⟨rfl, -⟩ <;> simp
  | word text =>
    obtain ⟨rfl, filled, -⟩ := h
    exact filled
  | literal quote text =>
    obtain ⟨pieces, rfl, -⟩ := h
    simp
  | punctuation kind =>
    obtain ⟨c, head, -⟩ := punctuation_head _ h.2.1
    intro same
    subst same
    simp at head

/-- No punctuation ends with a line feed or a character of words. -/
theorem punctuation_getLast? :
    ∀ entry ∈ TokenKind.punctuation, ∃ c ∈ entry.1.getLast?, c ≠ '\n' ∧ isWordPart c = false := by
  have table : ∀ entry ∈ TokenKind.punctuation, entry.1.getLast?.any fun c =>
      c ≠ '\n' ∧ isWordPart c = false := by decide
  intro entry member
  simpa [Option.any_eq_true] using table entry member

/-- The last character of a lexeme: a line feed ends the line break only, and a character that
belongs to words is followed by one that does not. -/
theorem getLast? (h : lexeme.Spelled raw rest) :
    ∃ c ∈ raw.getLast?, (c = '\n' → lexeme = .lineBreak) ∧
      (isWordPart c → NextIs (fun d => ¬ isWordPart d) rest) := by
  cases lexeme with
  | lineBreak =>
    obtain rfl : raw = ['\n'] := h
    exact ⟨'\n', rfl, fun _ => rfl, fun part => absurd part (by decide)⟩
  | separator =>
    obtain rfl : raw = [';'] := h
    exact ⟨';', rfl, fun same => absurd same (by decide), fun part => absurd part (by decide)⟩
  | comment text =>
    rcases h with ⟨rfl, inside, next⟩ | ⟨rfl, -⟩
    · have stops : NextIs (fun d => ¬ isWordPart d) rest := by
        intro d head
        rw [next d head]
        decide
      cases last : text.getLast? with
      | none =>
        obtain rfl := List.getLast?_eq_none_iff.1 last
        exact ⟨'/', rfl, fun same => absurd same (by decide), fun _ => stops⟩
      | some c =>
        refine ⟨c, by rw [List.getLast?_append, last]; rfl, ?_, fun _ => stops⟩
        intro same
        subst same
        exact absurd (List.mem_of_getLast? last) inside
    · exact ⟨'/', by rw [List.getLast?_append]; rfl, fun same => absurd same (by decide),
        fun part => absurd part (by decide)⟩
  | word text =>
    obtain ⟨rfl, filled, inside, next⟩ := h
    obtain ⟨init, c, rfl⟩ := List.eq_nil_or_concat raw |>.resolve_left filled
    refine ⟨c, by simp, ?_, fun _ => next⟩
    intro same
    exact absurd same (ne_of_isWordPart (inside c (by simp)) (by decide))
  | literal quote text =>
    obtain ⟨pieces, rfl, -⟩ := h
    refine ⟨quote.char, List.getLast?_concat, ?_, ?_⟩
    · intro same
      cases quote <;> exact absurd same (by decide)
    · intro part
      cases quote <;> exact absurd part (by decide)
  | punctuation kind =>
    obtain ⟨c, last, newline, part⟩ := punctuation_getLast? _ h.2.1
    exact ⟨c, last, fun same => absurd same newline, fun word => by simp [part] at word⟩

end Spelled

end DreamLexer.Lexeme
