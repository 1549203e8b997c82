import DreamLexer.Json.Lexeme
import DreamLexer.Proofs.Text.Delimited

/-!
# JSON values

A value is written as lexemes, and the lexemes tell the value and where it ends
(`Value.delimited_lexemes`). No two numbers are neighbours among them (`Value.apart_lexemes`), so a
text can put them next to each other.
-/

namespace DreamLexer.Json

/-- What a JSON text says. A number is kept as it is written, and an object keeps its entries in
their order. -/
inductive Value where
  | null
  | bool (value : Bool)
  | number (literal : String)
  | string (content : String)
  | array (elements : List Value)
  | object (entries : List (String × Value))

theorem sizeOf_value_lt {entry : String × Value} {entries : List (String × Value)}
    (member : entry ∈ entries) : sizeOf entry.2 < sizeOf entries := by
  have within := List.sizeOf_lt_of_mem member
  obtain ⟨key, value⟩ := entry
  simp only [Prod.mk.sizeOf_spec] at within ⊢
  omega

namespace Value

/-- The lexemes a value is written with. -/
def lexemes : Value → List Lexeme
  | .null => [.null]
  | .bool value => [.bool value]
  | .number literal => [.number literal]
  | .string content => [.string content]
  | .array elements => Json.array (elements.map lexemes)
  | .object entries => Json.object (entries.map fun entry => (entry.1, entry.2.lexemes))
decreasing_by
  · have within := List.sizeOf_lt_of_mem ‹_ ∈ elements›
    simp only [array.sizeOf_spec]
    omega
  · have within := sizeOf_value_lt ‹_ ∈ entries›
    simp only [object.sizeOf_spec]
    omega

/-- A natural number. -/
def natural (n : Nat) : Value := .number (toString n)

end Value

/-- The lexemes of an entry of an object. -/
def entryLexemes (entry : String × Value) : List Lexeme :=
  [.string entry.1, .colon] ++ entry.2.lexemes

namespace Value

theorem lexemes_object (entries : List (String × Value)) :
    (Value.object entries).lexemes =
      [.openObject] ++ [Lexeme.comma].intercalate (entries.map entryLexemes) ++ [.closeObject] := by
  simp only [lexemes, Json.object, List.map_map]
  rfl

theorem lexemes_array (elements : List Value) :
    (Value.array elements).lexemes =
      [.openArray] ++ [Lexeme.comma].intercalate (elements.map lexemes) ++ [.closeArray] := by
  rw [lexemes, Json.array]

theorem lexemes_natural (n : Nat) : (natural n).lexemes = [.natural n] := by
  rw [natural, lexemes, Lexeme.natural]

/-- No value starts with the end of an array or object. -/
theorem exists_cons (value : Value) :
    ∃ first others, value.lexemes = first :: others ∧ first.closes = false := by
  cases value with
  | array elements => exact ⟨.openArray, _, by rw [lexemes_array]; rfl, rfl⟩
  | object entries => exact ⟨.openObject, _, by rw [lexemes_object]; rfl, rfl⟩
  | _ => exact ⟨_, [], by rw [lexemes], rfl⟩

/-- The lexemes of a value tell the value and where it ends. -/
theorem delimited_lexemes (value : Value) : Text.Delimited lexemes value := by
  induction value using lexemes.induct with
  | case5 elements ih =>
    have starts (value : Value) :
        ∃ first others, value.lexemes = first :: others ∧ first ≠ .closeArray := by
      obtain ⟨first, others, written, opens⟩ := value.exists_cons
      refine ⟨first, others, written, ?_⟩
      rintro rfl
      cases opens
    have inner := Text.delimited_intercalate Lexeme.comma .closeArray ih starts (by decide)
    intro other rest behind same
    cases other with
    | array others =>
      rw [lexemes_array, lexemes_array] at same
      obtain ⟨rfl, rest_eq⟩ := inner (by simpa using same)
      exact ⟨rfl, rest_eq⟩
    | _ => simp [lexemes, Json.array, Json.object] at same
  | case6 entries ih =>
    have each : ∀ entry ∈ entries, Text.Delimited entryLexemes entry := by
      intro entry member other rest behind same
      obtain ⟨key, value⟩ := entry
      obtain ⟨key', value'⟩ := other
      simp only [entryLexemes, List.cons_append, List.nil_append, List.cons.injEq,
        Lexeme.string.injEq, true_and] at same
      obtain ⟨rfl, same⟩ := same
      obtain ⟨rfl, rest_eq⟩ := ih _ member same
      exact ⟨rfl, rest_eq⟩
    have inner := Text.delimited_intercalate Lexeme.comma .closeObject each
      (fun entry => ⟨.string entry.1, _, rfl, by simp⟩) (by decide)
    intro other rest behind same
    cases other with
    | object others =>
      rw [lexemes_object, lexemes_object] at same
      obtain ⟨rfl, rest_eq⟩ := inner (by simpa using same)
      exact ⟨rfl, rest_eq⟩
    | _ => simp [lexemes, Json.array, Json.object] at same
  | _ =>
    intro other rest behind same
    cases other <;> simp_all [lexemes, Json.array, Json.object]

end Value

/-- Whether the lexeme is a number. -/
def Lexeme.isNumber : Lexeme → Bool
  | .number _ => true
  | _ => false

/-- No two numbers are neighbours. -/
def Apart : List Lexeme → Prop
  | [] => True
  | lexeme :: lexemes =>
    (lexeme.isNumber = true → ∀ next ∈ lexemes.head?, next.isNumber = false) ∧ Apart lexemes

section Apart

variable {lexeme : Lexeme} {first second : List Lexeme}

theorem Apart.cons (no_number : lexeme.isNumber = false) (apart : Apart second) :
    Apart (lexeme :: second) := by
  refine ⟨fun number => ?_, apart⟩
  rw [no_number] at number
  cases number

theorem Apart.parted (no_number : lexeme.isNumber = false) (apart : Apart first)
    (apart' : Apart second) : Apart (first ++ lexeme :: second) := by
  induction first with
  | nil => exact apart'.cons no_number
  | cons front first ih =>
    obtain ⟨here, later⟩ := apart
    refine ⟨fun number next follows => ?_, ih later⟩
    cases first with
    | nil =>
      obtain rfl := Option.some.inj follows
      exact no_number
    | cons => exact here number next follows

theorem Apart.intercalate {parts : List (List Lexeme)} (each : ∀ part ∈ parts, Apart part) :
    Apart ([Lexeme.comma].intercalate parts) := by
  induction parts with
  | nil => trivial
  | cons part parts ih =>
    obtain ⟨here, later⟩ := List.forall_mem_cons.1 each
    cases parts with
    | nil => simpa using here
    | cons next parts =>
      rw [List.intercalate_cons_cons, List.append_assoc]
      exact here.parted rfl (ih later)

/-- No two numbers of a value are neighbours. -/
theorem Value.apart_lexemes (value : Value) : Apart value.lexemes := by
  induction value using lexemes.induct with
  | case5 elements ih =>
    have each : ∀ part ∈ elements.map lexemes, Apart part := List.forall_mem_map.2 ih
    rw [lexemes_array, List.append_assoc]
    exact ((Apart.intercalate each).parted rfl (show Apart [] from trivial)).cons rfl
  | case6 entries ih =>
    have each : ∀ part ∈ entries.map entryLexemes, Apart part :=
      List.forall_mem_map.2 fun entry member => ((ih entry member).cons rfl).cons rfl
    rw [lexemes_object, List.append_assoc]
    exact ((Apart.intercalate each).parted rfl (show Apart [] from trivial)).cons rfl
  | _ => simp [lexemes, Apart]

end Apart

/-- The lexeme is no number, or a number of the given kind. -/
def Lexeme.NumberIs (kind : String → Prop) (lexeme : Lexeme) : Prop :=
  ∀ literal, lexeme = .number literal → kind literal

/-- All numbers among the lexemes are of the given kind. -/
def NumbersAre (kind : String → Prop) (lexemes : List Lexeme) : Prop :=
  ∀ lexeme ∈ lexemes, lexeme.NumberIs kind

namespace NumbersAre

variable {kind : String → Prop} {lexeme : Lexeme} {first second : List Lexeme}
  {parts : List (List Lexeme)}

theorem nil : NumbersAre kind [] := List.forall_mem_nil _

theorem cons (no_number : lexeme.isNumber = false) (others : NumbersAre kind second) :
    NumbersAre kind (lexeme :: second) := by
  refine List.forall_mem_cons.2 ⟨?_, others⟩
  rintro literal rfl
  cases no_number

theorem append (front : NumbersAre kind first) (back : NumbersAre kind second) :
    NumbersAre kind (first ++ second) :=
  List.forall_mem_append.2 ⟨front, back⟩

theorem intercalate (each : ∀ part ∈ parts, NumbersAre kind part) :
    NumbersAre kind ([Lexeme.comma].intercalate parts) := by
  induction parts with
  | nil => exact nil
  | cons part parts ih =>
    obtain ⟨here, later⟩ := List.forall_mem_cons.1 each
    cases parts with
    | nil => simpa using here
    | cons next parts =>
      rw [List.intercalate_cons_cons, List.append_assoc]
      exact here.append (cons rfl (ih later))

theorem array (each : ∀ part ∈ parts, NumbersAre kind part) :
    NumbersAre kind (Json.array parts) := by
  rw [Json.array, List.append_assoc]
  exact cons rfl ((intercalate each).append (cons rfl nil))

theorem object {entries : List (String × List Lexeme)}
    (each : ∀ entry ∈ entries, NumbersAre kind entry.2) :
    NumbersAre kind (Json.object entries) := by
  rw [Json.object, List.append_assoc, List.singleton_append]
  refine cons rfl (append (intercalate (List.forall_mem_map.2 fun entry member => ?_))
    (cons rfl nil))
  exact cons rfl (cons rfl (each entry member))

end NumbersAre

end DreamLexer.Json
