import DreamLexer.Proofs.Text.Quoted
import DreamLexer.Token.Basic

/-!
# Shown tokens and positions

What is shown of a position tells it, whatever the name of its unit looks like: the counters are the
digits behind the last two colons (`Position.display_inj`). What is shown of a token tells its kind
and its payload (`Token.display_inj`), since the name of a kind has no bracket in it.
-/

namespace DreamLexer

namespace Position

variable {p q : Position} {c : Char}

theorem toList_display (p : Position) : p.display.toList =
    (p.unit.toList ++ ':' :: (toString p.line.toNat).toList) ++
      ':' :: (toString p.column.toNat).toList := by
  simp [display]

/-- A position shows its unit, colons and digits. -/
theorem not_mem_display (named : c ∉ p.unit.toList) (no_colon : c ≠ ':') (no_digit : ¬ c.isDigit) :
    c ∉ p.display.toList := by
  have no_counter (n : Nat) : c ∉ (toString n).toList :=
    fun member => no_digit (Text.isDigit_of_mem_toString member)
  simp only [toList_display, List.mem_append, List.mem_cons, not_or]
  exact ⟨⟨named, no_colon, no_counter _⟩, no_colon, no_counter _⟩

theorem display_inj (same : p.display = q.display) : p = q := by
  have no_colon (n : Nat) : ':' ∉ (toString n).toList :=
    fun member => absurd (Text.isDigit_of_mem_toString member) (by decide)
  have whole := congrArg String.toList same
  rw [toList_display, toList_display] at whole
  obtain ⟨front, column⟩ := Text.append_last_mark_inj (no_colon _) (no_colon _) whole
  obtain ⟨unit, line⟩ := Text.append_last_mark_inj (no_colon _) (no_colon _) front
  obtain ⟨unitName, lineNumber, columnNumber⟩ := p
  obtain rfl := String.toList_inj.1 unit
  obtain rfl := UInt32.toNat_inj.1 (Text.toString_inj line)
  obtain rfl := UInt32.toNat_inj.1 (Text.toString_inj column)
  rfl

end Position

/-- The reserved words. -/
def Keyword.all : List Keyword :=
  [.asWord, .constWord, .delWord, .forWord, .ifWord, .inWord, .newWord, .procWord, .returnWord,
   .setWord, .tmpWord, .varWord, .verbWord]

namespace TokenKind

/-- The kinds of tokens. -/
def all : List TokenKind :=
  [.blockBegin, .blockEnd, .comma, .comment, .dot, .equal, .exclamation, .ident, .newline,
   .parenLeft, .parenRight, .shiftLeft, .slash, .doubleQuoted, .singleQuoted] ++
    Keyword.all.map .keyword

/-- The kind with this name. -/
def ofName? (name : String) : Option TokenKind := all.find? (·.name == name)

theorem mem_all (kind : TokenKind) : kind ∈ all := by
  cases kind with
  | keyword word => cases word <;> decide
  | _ => decide

theorem ofName?_name (kind : TokenKind) : ofName? kind.name = some kind := by
  have each : ∀ kind ∈ all, ofName? kind.name = some kind := by decide
  exact each kind kind.mem_all

theorem name_inj {kind other : TokenKind} (same : kind.name = other.name) : kind = other := by
  have found := ofName?_name kind
  rw [same, ofName?_name] at found
  exact (Option.some.inj found).symm

/-- A name is made of capitals and underscores. -/
theorem isUpper_of_mem_name {kind : TokenKind} {c : Char} (member : c ∈ kind.name.toList) :
    c.isUpper ∨ c = '_' := by
  have each : ∀ kind ∈ all, kind.name.toList.all (fun c => c.isUpper || c == '_') := by decide
  simpa using List.all_eq_true.1 (each kind kind.mem_all) c member

end TokenKind

namespace Token

variable {t u : Token} {c : Char}

theorem toList_display_of_payload {kind : TokenKind} {payload : String} {span : Option Span} :
    (Token.mk kind (some payload) span).display.toList =
      kind.name.toList ++ '(' :: (Text.quoted payload.toList ++ [')']) := by
  simp [display]

/-- A token stays on its line, and there is no tab in it. -/
theorem not_mem_display (is_blank : c = '\t' ∨ c = '\n') : c ∉ t.display.toList := by
  have no_name : c ∉ t.kind.name.toList := by
    intro member
    have letter := TokenKind.isUpper_of_mem_name member
    rcases is_blank with rfl | rfl <;> exact absurd letter (by decide)
  have no_bracket : c ≠ '(' ∧ c ≠ ')' := by rcases is_blank with rfl | rfl <;> decide
  obtain ⟨kind, payload, span⟩ := t
  cases payload with
  | none => exact no_name
  | some payload =>
    rw [toList_display_of_payload]
    simp only [List.mem_append, List.mem_cons, List.not_mem_nil, or_false, not_or]
    exact ⟨no_name, no_bracket.1, Text.not_mem_quoted is_blank _, no_bracket.2⟩

theorem display_inj (same : t.display = u.display) : t.kind = u.kind ∧ t.payload = u.payload := by
  have no_bracket (kind : TokenKind) : '(' ∉ kind.name.toList :=
    fun member => absurd (TokenKind.isUpper_of_mem_name member) (by decide)
  have whole := congrArg String.toList same
  obtain ⟨kind, payload, span⟩ := t
  obtain ⟨kind', payload', span'⟩ := u
  cases payload with
  | none =>
    cases payload' with
    | none => exact ⟨TokenKind.name_inj same, rfl⟩
    | some payload' =>
      rw [toList_display_of_payload] at whole
      exact absurd (whole ▸ List.mem_append_right _ List.mem_cons_self) (no_bracket kind)
  | some payload =>
    cases payload' with
    | none =>
      rw [toList_display_of_payload] at whole
      exact absurd (whole ▸ List.mem_append_right _ List.mem_cons_self) (no_bracket kind')
    | some payload' =>
      rw [toList_display_of_payload, toList_display_of_payload] at whole
      obtain ⟨name, behind⟩ := Text.append_mark_inj (no_bracket kind) (no_bracket kind') whole
      obtain ⟨text, -⟩ := Text.delimited_quoted _ behind
      exact ⟨TokenKind.name_inj (String.toList_inj.1 name),
        congrArg some (String.toList_inj.1 text)⟩

end Token

end DreamLexer
