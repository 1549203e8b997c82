import DreamLexer.Command.Listing
import DreamLexer.Proofs.Json.Printer
import DreamLexer.Proofs.Token.Display

/-!
# The JSON listing is read back

In either layout the listing says one value and no other: the array of the units, each with its
tokens, and their payloads and spans (`listed`). The units are read off that value field by field,
so nothing is lost, and the layouts differ in the blanks outside of strings alone:
`json_listing_lossless`.
-/

namespace DreamLexer

namespace Json

namespace Value

/-- The value of an entry of an object. -/
def entry? (key : String) : Value → Option Value
  | .object entries => entries.lookup key
  | _ => none

/-- The text of a string. -/
def string? : Value → Option String
  | .string content => some content
  | _ => none

/-- The natural number that 32 bits can hold. -/
def counter? : Value → Option UInt32
  | .number literal =>
    (natural? literal.toList).bind fun n =>
      if n < UInt32.size then some (UInt32.ofNat n) else none
  | _ => none

/-- What is read, unless it is null. -/
def orNull? {α : Type} (read : Value → Option α) : Value → Option (Option α)
  | .null => some none
  | value => (read value).map some

/-- What is read of the elements of an array. -/
def elements? {α : Type} (read : Value → Option α) : Value → Option (List α)
  | .array elements => elements.mapM read
  | _ => none

theorem counter?_natural (n : UInt32) : (natural n.toNat).counter? = some n := by
  rw [natural, counter?, natural?_toString, Option.bind_some, if_pos n.toNat_lt_size,
    UInt32.ofNat_toNat]

theorem elements?_map {α : Type} {read : Value → Option α} {write : α → Value}
    (back : ∀ a, read (write a) = some a) (as : List α) :
    (array (as.map write)).elements? read = some as := by
  unfold elements?
  induction as with
  | nil => rfl
  | cons a as ih => simp [back, ih]

end Value

theorem numberIs_natural (n : Nat) : (Lexeme.natural n).NumberIs IsLiteral := by
  rintro literal same
  obtain rfl := Lexeme.number.inj same
  exact isNumber_toString n

end Json

open Json (Value NumbersAre IsLiteral)

/-- The position as a value. -/
def Position.value (p : Position) : Value :=
  .object [("unit", .string p.unit), ("line", .natural p.line.toNat),
    ("column", .natural p.column.toNat)]

/-- The position that a value stands for. -/
def Position.ofValue? (value : Value) : Option Position := do
  let unit ← (← value.entry? "unit").string?
  let line ← (← value.entry? "line").counter?
  let column ← (← value.entry? "column").counter?
  some ⟨unit, line, column⟩

/-- The span as a value. -/
def Span.value (s : Span) : Value := .object [("start", s.start.value), ("end", s.stop.value)]

/-- The span that a value stands for. -/
def Span.ofValue? (value : Value) : Option Span := do
  let start ← Position.ofValue? (← value.entry? "start")
  let stop ← Position.ofValue? (← value.entry? "end")
  some ⟨start, stop⟩

/-- The token as a value; what is missing is null. -/
def Token.value (t : Token) : Value :=
  .object [("kind", .string t.kind.name), ("payload", (t.payload.map .string).getD .null),
    ("span", (t.span.map Span.value).getD .null)]

/-- The token that a value stands for. -/
def Token.ofValue? (value : Value) : Option Token := do
  let kind ← TokenKind.ofName? (← (← value.entry? "kind").string?)
  let payload ← (← value.entry? "payload").orNull? Value.string?
  let span ← (← value.entry? "span").orNull? Span.ofValue?
  some ⟨kind, payload, span⟩

/-- The unit as a value. -/
def Command.UnitTokens.value (u : Command.UnitTokens) : Value :=
  .object [("unit", .string u.unit), ("tokens", .array (u.tokens.map Token.value))]

/-- The unit that a value stands for. -/
def Command.UnitTokens.ofValue? (value : Value) : Option Command.UnitTokens := do
  let unit ← (← value.entry? "unit").string?
  let tokens ← (← value.entry? "tokens").elements? Token.ofValue?
  some ⟨unit, tokens⟩

namespace Position

theorem ofValue?_value (p : Position) : ofValue? p.value = some p := by
  simp [ofValue?, value, Value.entry?, List.lookup_cons, Value.string?, Value.counter?_natural]

theorem lexemes_value (p : Position) : p.value.lexemes = p.json := by
  simp [value, Value.lexemes, Value.lexemes_natural, json]

theorem literals_json (p : Position) : NumbersAre IsLiteral p.json := by
  apply NumbersAre.object
  simp only [List.forall_mem_cons]
  exact ⟨.cons rfl .nil, List.forall_mem_singleton.2 (Json.numberIs_natural _),
    List.forall_mem_singleton.2 (Json.numberIs_natural _), List.forall_mem_nil _⟩

end Position

namespace Span

theorem ofValue?_value (s : Span) : ofValue? s.value = some s := by
  simp [ofValue?, value, Value.entry?, List.lookup_cons, Position.ofValue?_value]

theorem lexemes_value (s : Span) : s.value.lexemes = s.json := by
  simp [value, Value.lexemes, Position.lexemes_value, json]

theorem literals_json (s : Span) : NumbersAre IsLiteral s.json := by
  apply NumbersAre.object
  simp only [List.forall_mem_cons]
  exact ⟨s.start.literals_json, s.stop.literals_json, List.forall_mem_nil _⟩

end Span

namespace Token

theorem ofValue?_value (t : Token) : ofValue? t.value = some t := by
  obtain ⟨kind, payload, span⟩ := t
  have payload_back : ((payload.map Value.string).getD .null).orNull? Value.string? =
      some payload := by
    cases payload <;> rfl
  have span_back : ((span.map Span.value).getD .null).orNull? Span.ofValue? = some span := by
    cases span with
    | none => rfl
    | some span =>
      have read : (some span.value).getD .null = span.value := rfl
      rw [Option.map_some, read]
      exact congrArg (Option.map some) span.ofValue?_value
  simp [ofValue?, value, Value.entry?, List.lookup_cons, Value.string?, TokenKind.ofName?_name,
    payload_back, span_back]

theorem lexemes_value (t : Token) : t.value.lexemes = t.json := by
  obtain ⟨kind, payload, span⟩ := t
  cases payload <;> cases span <;> simp [value, Value.lexemes, Span.lexemes_value, json]

theorem literals_json (t : Token) : NumbersAre IsLiteral t.json := by
  obtain ⟨kind, payload, span⟩ := t
  apply NumbersAre.object
  simp only [List.forall_mem_cons]
  refine ⟨.cons rfl .nil, ?_, ?_, List.forall_mem_nil _⟩
  · cases payload <;> exact .cons rfl .nil
  · cases span with
    | none => exact .cons rfl .nil
    | some span => exact span.literals_json

end Token

namespace Command

namespace UnitTokens

theorem ofValue?_value (u : UnitTokens) : ofValue? u.value = some u := by
  have tokens := Value.elements?_map Token.ofValue?_value u.tokens
  simp [ofValue?, value, Value.entry?, List.lookup_cons, Value.string?, tokens]

theorem lexemes_value (u : UnitTokens) : u.value.lexemes = u.json := by
  have tokens : (u.tokens.map Token.value).map Value.lexemes = u.tokens.map Token.json := by
    rw [List.map_map]
    exact List.map_congr_left fun t _ => t.lexemes_value
  simp only [value, Value.lexemes, List.map_cons, List.map_nil, tokens, json]

theorem literals_json (u : UnitTokens) : NumbersAre IsLiteral u.json := by
  apply NumbersAre.object
  simp only [List.forall_mem_cons]
  exact ⟨.cons rfl .nil, .array (List.forall_mem_map.2 fun t _ => t.literals_json),
    List.forall_mem_nil _⟩

end UnitTokens

variable {units : List UnitTokens}

/-- The units as a value. -/
def listed (units : List UnitTokens) : Value := .array (units.map UnitTokens.value)

theorem lexemes_listed (units : List UnitTokens) :
    (listed units).lexemes = Json.array (units.map UnitTokens.json) := by
  have each : (units.map UnitTokens.value).map Value.lexemes = units.map UnitTokens.json := by
    rw [List.map_map]
    exact List.map_congr_left fun u _ => u.lexemes_value
  rw [listed, Value.lexemes, each]

/-- In either layout the listing puts the lexemes of the units one after the other, as they are
printed. -/
theorem laid_listing (pretty : Bool) (units : List UnitTokens) :
    Json.Laid Json.Lexeme.Printed (listed units).lexemes (listing .json pretty units).toList := by
  have literals : NumbersAre IsLiteral (Json.array (units.map UnitTokens.json)) :=
    .array (List.forall_mem_map.2 fun u _ => u.literals_json)
  have feed : ∀ c ∈ ['\n'], Json.isJsonBlank c = true := List.forall_mem_singleton.2 rfl
  rw [lexemes_listed]
  cases pretty with
  | true => simpa [listing] using (Json.laid_indented literals).append_blanks feed
  | false => simpa [listing] using (Json.laid_compact literals).append_blanks feed

theorem denotes_listing_iff (pretty : Bool) (units : List UnitTokens) (value : Value) :
    Json.Denotes (listing .json pretty units).toList value ↔ value = listed units := by
  have denotes : Json.Denotes (listing .json pretty units).toList (listed units) :=
    (laid_listing pretty units).mono fun _ _ printed => printed.spelled
  constructor
  · exact fun denotes' => denotes'.unique denotes
  · rintro rfl
    exact denotes

theorem ofValue?_listed (units : List UnitTokens) :
    (listed units).elements? UnitTokens.ofValue? = some units :=
  Value.elements?_map UnitTokens.ofValue?_value units

/-- The JSON listing is a JSON text that says the units, field by field, in either layout. Listings
of other units are other listings, and without the blanks outside of its strings the indented one is
the compact one. -/
theorem json_listing_lossless (units : List UnitTokens) :
    (∀ pretty value, Json.Denotes (listing .json pretty units).toList value ↔
        value = listed units) ∧
      (listed units).elements? UnitTokens.ofValue? = some units ∧
      (∀ others pretty pretty', listing .json pretty units = listing .json pretty' others →
        units = others) ∧
      (listing .json false units).toList =
        Json.unblanked (listing .json true units).toList ++ ['\n'] := by
  refine ⟨fun pretty => denotes_listing_iff pretty units, ofValue?_listed units, ?_, ?_⟩
  · intro others pretty pretty' same
    have denotes := (denotes_listing_iff pretty units (listed units)).2 rfl
    rw [same, denotes_listing_iff] at denotes
    have read := ofValue?_listed units
    rw [denotes, ofValue?_listed] at read
    exact (Option.some.inj read).symm
  · rw [Json.unblanked_of_laid (laid_listing true units), lexemes_listed]
    simp [listing]

end Command

end DreamLexer
