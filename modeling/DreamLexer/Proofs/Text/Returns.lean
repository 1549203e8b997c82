import DreamLexer.Proofs.Lexeme.Grammar
import DreamLexer.Text.Blank

/-!
# Carriage returns before line feeds

A text may be written with a carriage return before every line feed. That takes up a column in front
of the line feed, behind which the columns start over: `advanceOver_withReturns`.
-/

namespace DreamLexer

namespace Text

/-- A character, with a carriage return before it if it is a line feed. -/
def withReturn (c : Char) : List Char := if c = '\n' then ['\r', '\n'] else [c]

/-- The text with a carriage return before every line feed. -/
def withReturns (text : List Char) : List Char := text.flatMap withReturn

/-- The text without its carriage returns. -/
def dropReturns (text : List Char) : List Char := text.filter (· != '\r')

variable {c : Char} {text rest : List Char}

@[simp] theorem withReturns_nil : withReturns [] = [] := rfl

@[simp] theorem withReturns_newline (rest : List Char) :
    withReturns ('\n' :: rest) = '\r' :: '\n' :: withReturns rest := rfl

theorem withReturns_cons (rest : List Char) (newline : c ≠ '\n') :
    withReturns (c :: rest) = c :: withReturns rest := by
  rw [withReturns, List.flatMap_cons, withReturn, if_neg newline]
  rfl

@[simp] theorem withReturns_append (first second : List Char) :
    withReturns (first ++ second) = withReturns first ++ withReturns second :=
  List.flatMap_append

/-- Within a line nothing changes. -/
theorem withReturns_of_not_mem (inside : '\n' ∉ text) : withReturns text = text := by
  induction text with
  | nil => rfl
  | cons c text ih =>
    rw [withReturns_cons text (List.ne_of_not_mem_cons inside).symm,
      ih (List.not_mem_of_not_mem_cons inside)]

theorem not_mem_dropWhile (absent : c ∉ text) (p : Char → Bool) : c ∉ text.dropWhile p :=
  fun member => absent ((List.dropWhile_sublist p).subset member)

/-- A text is its first line, and the text behind it if there is a line feed. -/
theorem exists_line (text : List Char) :
    ∃ line, '\n' ∉ line ∧ (text = line ∨ ∃ behind, text = line ++ '\n' :: behind) := by
  induction text with
  | nil => exact ⟨[], by simp, .inl rfl⟩
  | cons c text ih =>
    by_cases newline : c = '\n'
    · exact ⟨[], by simp, .inr ⟨text, by rw [newline]; rfl⟩⟩
    · obtain ⟨line, inside, whole⟩ := ih
      refine ⟨c :: line, List.not_mem_cons_of_ne_of_not_mem (Ne.symm newline) inside, ?_⟩
      rcases whole with rfl | ⟨behind, rfl⟩
      · exact .inl rfl
      · exact .inr ⟨behind, rfl⟩

/-- A carriage return comes first only where a line feed did. -/
theorem of_withReturns_eq_cons {behind : List Char} (h : withReturns text = c :: behind)
    (visible : c ≠ '\r') : ∃ others, text = c :: others ∧ behind = withReturns others := by
  cases text with
  | nil => simp at h
  | cons d others =>
    by_cases newline : d = '\n'
    · subst newline
      exact absurd (List.cons.inj h).1.symm visible
    · rw [withReturns_cons others newline] at h
      obtain ⟨rfl, rfl⟩ := List.cons.inj h
      exact ⟨others, rfl, rfl⟩

@[simp] theorem dropReturns_append (first second : List Char) :
    dropReturns (first ++ second) = dropReturns first ++ dropReturns second :=
  List.filter_append first second

/-- A stretch that neither character belongs to ends where it did. -/
theorem takeWhile_dropWhile_withReturns {p : Char → Bool} (newline : p '\n' = false)
    (returns : p '\r' = false) (text : List Char) :
    (withReturns text).takeWhile p = text.takeWhile p ∧
      (withReturns text).dropWhile p = withReturns (text.dropWhile p) := by
  induction text with
  | nil => exact ⟨rfl, rfl⟩
  | cons c text ih =>
    by_cases same : c = '\n'
    · subst same
      simp [newline, returns]
    · rw [withReturns_cons text same]
      cases inside : p c with
      | true => simp [inside, ih]
      | false => simp [inside, withReturns_cons text same]

/-- A stretch that only carriage returns belong to takes one in if a line feed is next. -/
theorem takeWhile_dropWhile_return {p : Char → Bool} (newline : p '\n' = false)
    (returns : p '\r' = true) (text : List Char) :
    ((withReturns text).takeWhile p = text.takeWhile p ∧
        (withReturns text).dropWhile p = withReturns (text.dropWhile p)) ∨
      ∃ behind, text.dropWhile p = '\n' :: behind ∧
        (withReturns text).takeWhile p = text.takeWhile p ++ ['\r'] ∧
        (withReturns text).dropWhile p = '\n' :: withReturns behind := by
  induction text with
  | nil => exact .inl ⟨rfl, rfl⟩
  | cons c text ih =>
    by_cases same : c = '\n'
    · subst same
      exact .inr ⟨text, by simp [newline, returns]⟩
    · rw [withReturns_cons text same]
      cases inside : p c with
      | false => simp [inside, withReturns_cons text same]
      | true => simpa [inside] using ih

/-- Only carriage returns were put in. -/
@[simp] theorem dropReturns_withReturns (text : List Char) :
    dropReturns (withReturns text) = dropReturns text := by
  induction text with
  | nil => rfl
  | cons c text ih =>
    have behind (first : List Char) :
        dropReturns (first ++ withReturns text) = dropReturns (first ++ text) := by
      rw [dropReturns_append, dropReturns_append, ih]
    by_cases newline : c = '\n'
    · subst newline
      exact behind ['\r', '\n']
    · rw [withReturns_cons text newline]
      exact behind [c]

/-- A carriage return at the end is a blank there. -/
theorem trimEnd_return (line : List Char) : trimEnd (line ++ ['\r']) = trimEnd line := by
  obtain ⟨dropped, whole, blank, last⟩ := trimEnd_eq_iff.1 (rfl : trimEnd line = _)
  refine trimEnd_eq_iff.2 ⟨dropped ++ ['\r'], ?_, ?_, last⟩
  · rw [← List.append_assoc, ← whole]
  · intro c member
    rcases List.mem_append.1 member with inside | added
    · exact blank c inside
    · obtain rfl := List.mem_singleton.1 added
      decide

/-- A text without line feeds and carriage returns starts both or neither. -/
theorem isPrefixOf_withReturns {spelling : List Char} (newline : '\n' ∉ spelling)
    (returns : '\r' ∉ spelling) (text : List Char) :
    spelling.isPrefixOf (withReturns text) = spelling.isPrefixOf text := by
  induction spelling generalizing text with
  | nil => simp
  | cons d spelling ih =>
    have no_newline : d ≠ '\n' := (List.ne_of_not_mem_cons newline).symm
    have no_return : d ≠ '\r' := (List.ne_of_not_mem_cons returns).symm
    have behind := ih (List.not_mem_of_not_mem_cons newline) (List.not_mem_of_not_mem_cons returns)
    cases text with
    | nil => rfl
    | cons c text =>
      by_cases same : c = '\n'
      · subst same
        rw [withReturns_newline, List.isPrefixOf_cons_cons, List.isPrefixOf_cons_cons,
          beq_false_of_ne no_return, beq_false_of_ne no_newline, Bool.false_and, Bool.false_and]
      · rw [withReturns_cons text same, List.isPrefixOf_cons_cons, List.isPrefixOf_cons_cons, behind]

end Text

open Text

/-- A text that starts with a line feed starts with a carriage return instead. -/
theorem Lexeme.NextIs.withReturns {p : Char → Prop} {rest : List Char} (h : NextIs p rest)
    (returns : p '\r') : NextIs p (withReturns rest) := by
  cases rest with
  | nil => exact nextIs_nil
  | cons c rest =>
    by_cases newline : c = '\n'
    · subst newline
      exact nextIs_cons.2 returns
    · rw [withReturns_cons rest newline]
      exact nextIs_cons.2 (nextIs_cons.1 h)

/-- Carriage returns in front of line feeds do not move the end of a text. -/
theorem Position.advanceOver_withReturns (width : UInt32) (p : Position) (text : List Char) :
    p.advanceOver width (withReturns text) = p.advanceOver width text := by
  induction text generalizing p with
  | nil => rfl
  | cons c text ih =>
    by_cases newline : c = '\n'
    · subst newline
      rw [withReturns_newline, advanceOver_cons, advanceOver_cons, advanceOver_cons, ih]
      rfl
    · rw [withReturns_cons text newline, advanceOver_cons, advanceOver_cons, ih]

end DreamLexer
