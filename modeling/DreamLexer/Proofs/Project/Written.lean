import DreamLexer.Project.Config
import DreamLexer.Proofs.Json.Object
import DreamLexer.Proofs.Json.Printer

/-!
# Written projects are read back

A project is written as an object with an entry for each of its fields, and its options as an
object within. The entries may come in any order, and those that say what is standard may be left
out. Every text that says such an object is read as the project, but for a width that no tab can
have, and one entry more makes either object one that is not of the shape that is wanted, whatever
the width: `parse_written`.
-/

namespace DreamLexer

open Json (Value Reader Field Readable Leads keys)

namespace Options

/-- The entries of the options, one for each field. -/
def entries (o : Options) : List (String × Value) :=
  [("emitComments", .bool o.emitComments), ("collapseNewlines", .bool o.collapseNewlines),
   ("keywords", .bool o.keywords), ("tabWidth", .natural o.tabWidth.toNat),
   ("closeBlocksAtEof", .bool o.closeBlocksAtEof)]

/-- The entry is one that some options are written with. -/
def IsEntry (entry : String × Value) : Prop := ∃ o : Options, entry ∈ o.entries

/-- The options are written with these entries: no field twice, and what is left out is
standard. -/
structure WrittenAs (o : Options) (written : List (String × Value)) : Prop where
  own : ∀ entry ∈ written, entry ∈ o.entries
  once : (keys written).Nodup
  standard : ∀ entry ∈ o.entries, entry.1 ∉ keys written → entry ∈ Options.standard.entries

/-- The fields with these keys are taken from the options, and the others from the base. -/
def overlaid (o base : Options) (read : List String) : Options where
  emitComments := if "emitComments" ∈ read then o.emitComments else base.emitComments
  collapseNewlines :=
    if "collapseNewlines" ∈ read then o.collapseNewlines else base.collapseNewlines
  keywords := if "keywords" ∈ read then o.keywords else base.keywords
  tabWidth := if "tabWidth" ∈ read then o.tabWidth else base.tabWidth
  closeBlocksAtEof :=
    if "closeBlocksAtEof" ∈ read then o.closeBlocksAtEof else base.closeBlocksAtEof

end Options

namespace Project

/-- The entries that a project can be written with. -/
inductive HasEntry (p : Project) : String × Value → Prop
  | options {written : List (String × Value)} (writes : p.options.WrittenAs written) :
      HasEntry p ("lexerOptions", .object written)
  | files : HasEntry p ("files", .array (p.files.map .string))

/-- The entry is one that some project can be written with. -/
def IsEntry (entry : String × Value) : Prop := ∃ p : Project, p.HasEntry entry

/-- The project is written with these entries: no field twice, and what is left out is
standard. -/
structure WrittenAs (p : Project) (written : List (String × Value)) : Prop where
  own : ∀ entry ∈ written, p.HasEntry entry
  once : (keys written).Nodup
  options : "lexerOptions" ∉ keys written → p.options = Project.standard.options
  files : "files" ∉ keys written → p.files = Project.standard.files

/-- The fields with these keys are taken from the project, and the others from the base. -/
def overlaid (p base : Project) (read : List String) : Project where
  options := if "lexerOptions" ∈ read then p.options else base.options
  files := if "files" ∈ read then p.files else base.files

end Project

section Values

open Json

theorem takes_bool (value : Bool) : Reader.Takes readBool (Value.bool value).lexemes value := by
  rw [Value.lexemes]
  exact ⟨.cons rfl .nil, fun _ => rfl⟩

theorem takes_counter (n : UInt32) :
    Reader.Takes readCounter (Value.natural n.toNat).lexemes n := by
  rw [Value.lexemes_natural]
  constructor
  · refine List.forall_mem_singleton.2 ?_
    rintro literal same
    exact ⟨n.toNat, n.toNat_lt_size, (Lexeme.number.inj same).symm⟩
  · intro behind
    simp only [itemsOf, List.map_cons, List.map_nil, List.singleton_append, Lexeme.natural,
      readCounter, natural?_toString, n.toNat_lt_size, if_true, UInt32.ofNat_toNat]

theorem readStrings_eq (first : String) (others : List String) (behind : List Item) :
    readStrings (.lexeme (.string first) ::
        (itemsOf (others.flatMap fun content => [.comma, .string content]) ++
          .lexeme .closeArray :: behind)) = .ok (first :: others, behind) := by
  induction others generalizing first with
  | nil => rfl
  | cons second others ih =>
    rw [List.flatMap_cons, itemsOf_append, List.append_assoc]
    simp only [itemsOf, List.map_cons, List.map_nil, List.cons_append, List.nil_append,
      readStrings] at ih ⊢
    rw [ih]
    rfl

theorem takes_strings (contents : List String) :
    Reader.Takes readStringArray (Value.array (contents.map .string)).lexemes contents := by
  have parts : (contents.map Value.string).map Value.lexemes =
      contents.map fun content => [Lexeme.string content] := by
    rw [List.map_map]
    exact List.map_congr_left fun content _ => by rw [Function.comp, Value.lexemes]
  cases contents with
  | nil =>
    rw [Value.lexemes_array]
    exact ⟨.cons rfl (.cons rfl .nil), fun _ => rfl⟩
  | cons first others =>
    have written : (Value.array ((first :: others).map .string)).lexemes =
        [.openArray, .string first] ++
          (others.flatMap fun content => [.comma, .string content]) ++ [.closeArray] := by
      rw [Value.lexemes_array, parts, List.map_cons, intercalate_cons, List.flatMap_map]
      rfl
    rw [written]
    constructor
    · have behind_first : NumbersAre IsCounter
          (others.flatMap fun content => [.comma, .string content]) := by
        intro lexeme member
        obtain ⟨content, -, inside⟩ := List.mem_flatMap.1 member
        exact NumbersAre.cons rfl (.cons rfl .nil) lexeme inside
      exact .append (.cons rfl (.cons rfl behind_first)) (.cons rfl .nil)
    · intro behind
      have read := readStrings_eq first others behind
      simpa [itemsOf, readStringArray] using read

end Values

namespace Project

section Fields

open Json

variable {σ α : Type} {read : Reader α} {put : σ → α → σ} {key : String} {value : Value} {a : α}

theorem takes_field (takes : read.Takes value.lexemes a) (record : σ) :
    Reader.Takes ((field key read put).read record) value.lexemes (put record a) := by
  refine ⟨takes.held, fun behind => ?_⟩
  have whole := takes.taken behind
  simp only [field, whole, bind, Except.bind]

theorem rejects_field {lexemes : List Lexeme} (rejects : read.Rejects lexemes) (record : σ) :
    Reader.Rejects ((field key read put).read record) lexemes := by
  obtain ⟨first, others, split, held, rejected⟩ := rejects
  refine ⟨first, others, split, held, fun behind => ?_⟩
  have whole := rejected behind
  simp only [field, whole, bind, Except.bind]

end Fields

/-- What is taken with a first key and with the others is taken with all of them. -/
theorem taken_cons {α : Type} (name key : String) (read : List String) (own base : α) :
    (if name ∈ read then own else if name ∈ [key] then own else base) =
      if name ∈ key :: read then own else base := by
  by_cases inside : name ∈ read <;> simp [inside]

section Options

variable {o : Options} {written : List (String × Value)}

theorem distinct_optionFields : (optionFields.map Field.key).Nodup := by decide

theorem overlaid_nil (o record : Options) : o.overlaid record [] = record := by
  simp [Options.overlaid]

theorem overlaid_cons (o record : Options) (key : String) (read : List String) :
    o.overlaid (o.overlaid record [key]) read = o.overlaid record (key :: read) := by
  simp only [Options.overlaid, taken_cons]

/-- Every entry of options is read by the field with its key. -/
theorem entries_stored (o : Options) : ∀ entry ∈ o.entries, ∃ field ∈ optionFields,
    field.key = entry.1 ∧
      ∀ record, Reader.Takes (field.read record) entry.2.lexemes (o.overlaid record [entry.1]) := by
  simp only [Options.entries, List.forall_mem_cons]
  refine ⟨?_, ?_, ?_, ?_, ?_, List.forall_mem_nil _⟩
  · exact ⟨_, .head _, rfl, takes_field (takes_bool _)⟩
  · exact ⟨_, .tail _ (.head _), rfl, takes_field (takes_bool _)⟩
  · exact ⟨_, .tail _ (.tail _ (.head _)), rfl, takes_field (takes_bool _)⟩
  · exact ⟨_, .tail _ (.tail _ (.tail _ (.head _))), rfl, takes_field (takes_counter _)⟩
  · exact ⟨_, .tail _ (.tail _ (.tail _ (.tail _ (.head _)))), rfl, takes_field (takes_bool _)⟩

theorem natural_inj {n m : UInt32} (same : Value.natural n.toNat = .natural m.toNat) : n = m :=
  UInt32.toNat_inj.1 (Text.toString_inj (congrArg String.toList (Value.number.inj same)))

/-- What is not written is standard, so nothing else is taken from the standard options. -/
theorem overlaid_keys (writes : o.WrittenAs written) : o.overlaid .standard (keys written) = o := by
  have left_out := writes.standard
  simp only [Options.entries, List.forall_mem_cons] at left_out
  obtain ⟨comments, newlines, words, width, blocks, -⟩ := left_out
  obtain ⟨emitComments, collapseNewlines, keywords, tabWidth, closeBlocks⟩ := o
  simp only [Options.overlaid, Options.mk.injEq]
  refine ⟨?_, ?_, ?_, ?_, ?_⟩ <;> split
  case isTrue | isTrue | isTrue | isTrue | isTrue => rfl
  · simpa [Options.entries, eq_comm] using comments ‹_›
  · simpa [Options.entries, eq_comm] using newlines ‹_›
  · simpa [Options.entries, eq_comm] using words ‹_›
  · have same : Value.natural tabWidth.toNat = .natural Options.standard.tabWidth.toNat := by
      simpa [Options.entries] using width ‹_›
    exact (natural_inj same).symm
  · simpa [Options.entries, eq_comm] using blocks ‹_›

theorem takes_options (writes : o.WrittenAs written) :
    Reader.Takes (Json.readRecord optionFields .standard) (Value.object written).lexemes o := by
  have leads : Leads optionFields written .standard (o.overlaid .standard (keys written)) :=
    .of_mix (overlaid_nil o) (overlaid_cons o) (fun entry member => entries_stored o entry
      (writes.own entry member)) .standard
  rw [overlaid_keys writes] at leads
  exact Json.takes_object distinct_optionFields leads writes.once

theorem readable_option {entry : String × Value} (valid : Options.IsEntry entry) :
    Readable optionFields entry := by
  obtain ⟨o, own⟩ := valid
  obtain ⟨field, member, key_eq, takes⟩ := entries_stored o entry own
  exact ⟨field, member, key_eq, fun record => ⟨_, takes record⟩⟩

theorem rejects_options {before after : List (String × Value)} {key : String} {value : Value}
    (writes : o.WrittenAs (before ++ after))
    (surplus : Json.IsSurplus (optionFields.map Field.key) Options.IsEntry before (key, value)
      after) (record : Options) :
    Reader.Rejects (Json.readRecord optionFields record)
      (Value.object (before ++ (key, value) :: after)).lexemes :=
  Json.rejects_inserted distinct_optionFields
    (fun entry member => readable_option ⟨o, writes.own entry member⟩) writes.once
    (surplus.mono fun _ => readable_option) record

end Options

section Project

variable {p : Project} {written before after : List (String × Value)}

theorem distinct_fields : (fields.map Field.key).Nodup := by decide

theorem project_overlaid_nil (p record : Project) : p.overlaid record [] = record := by
  simp [overlaid]

theorem project_overlaid_cons (p record : Project) (key : String) (read : List String) :
    p.overlaid (p.overlaid record [key]) read = p.overlaid record (key :: read) := by
  simp only [overlaid, taken_cons]

/-- Every entry of a project is read by the field with its key. -/
theorem HasEntry.stored {entry : String × Value} (own : p.HasEntry entry) :
    ∃ field ∈ fields, field.key = entry.1 ∧
      ∀ record, Reader.Takes (field.read record) entry.2.lexemes (p.overlaid record [entry.1]) := by
  cases own with
  | options writes => exact ⟨_, .head _, rfl, takes_field (takes_options writes)⟩
  | files => exact ⟨_, .tail _ (.head _), rfl, takes_field (takes_strings _)⟩

theorem readable_entry {entry : String × Value} (valid : IsEntry entry) :
    Readable fields entry := by
  obtain ⟨p, own⟩ := valid
  obtain ⟨field, member, key_eq, takes⟩ := own.stored
  exact ⟨field, member, key_eq, fun record => ⟨_, takes record⟩⟩

theorem HasEntry.options_written (own : p.HasEntry ("lexerOptions", .object written)) :
    p.options.WrittenAs written := by
  generalize same : ("lexerOptions", Value.object written) = entry at own
  cases own with
  | options writes =>
    obtain rfl := Value.object.inj (Prod.mk.inj same).2
    exact writes
  | files => cases (Prod.mk.inj same).2

theorem WrittenAs.overlaid_keys (writes : p.WrittenAs written) :
    p.overlaid standard (keys written) = p := by
  obtain ⟨options, files⟩ := p
  simp only [overlaid, Project.mk.injEq]
  constructor <;> split
  case isTrue | isTrue => rfl
  · exact (writes.options ‹_›).symm
  · exact (writes.files ‹_›).symm

theorem WrittenAs.takes (writes : p.WrittenAs written) :
    Reader.Takes (Json.readRecord fields standard) (Value.object written).lexemes p := by
  have leads : Leads fields written standard (p.overlaid standard (keys written)) :=
    .of_mix (project_overlaid_nil p) (project_overlaid_cons p)
      (fun entry member => (writes.own entry member).stored) standard
  rw [writes.overlaid_keys] at leads
  exact Json.takes_object distinct_fields leads writes.once

theorem WrittenAs.rejects {key : String} {value : Value} (writes : p.WrittenAs (before ++ after))
    (surplus : Json.IsSurplus (fields.map Field.key) IsEntry before (key, value) after) :
    Reader.Rejects (Json.readRecord fields standard)
      (Value.object (before ++ (key, value) :: after)).lexemes :=
  Json.rejects_inserted distinct_fields
    (fun entry member => readable_entry ⟨p, writes.own entry member⟩) writes.once
    (surplus.mono fun _ => readable_entry) standard

/-- A project is rejected with its options. -/
theorem WrittenAs.rejects_within {first second : List (String × Value)} {key : String}
    {value : Value}
    (writes : p.WrittenAs (before ++ ("lexerOptions", .object (first ++ second)) :: after))
    (surplus : Json.IsSurplus (optionFields.map Field.key) Options.IsEntry first (key, value)
      second) :
    Reader.Rejects (Json.readRecord fields standard)
      (Value.object (before ++ ("lexerOptions", .object (first ++ (key, value) :: second)) ::
        after)).lexemes := by
  obtain ⟨own_before, own_after⟩ := List.forall_mem_append.1 writes.own
  have inner := rejects_options (List.forall_mem_cons.1 own_after).1.options_written surplus
  exact Json.rejects_value distinct_fields
    (fun entry member => readable_entry ⟨p, own_before entry member⟩) writes.once (.head _)
    (rejects_field (inner .standard)) standard

end Project

/-- A text that says the entries of a project is read as the project if a tab can have its width.
A text that says one entry more, in the project or in its options, is not of the shape that is
wanted. -/
theorem parse_written (p : Project) :
    (∀ (text : String) written, Json.Denotes text.toList (.object written) → p.WrittenAs written →
        parse text =
          if 1 ≤ p.options.tabWidth ∧ p.options.tabWidth ≤ 64 then .ok p
          else .error (.tabWidthOutOfRange p.options.tabWidth)) ∧
      (∀ (text : String) before after key value, p.WrittenAs (before ++ after) →
        Json.IsSurplus (fields.map Field.key) IsEntry before (key, value) after →
        Json.Denotes text.toList (.object (before ++ (key, value) :: after)) →
        parse text = .error (.unreadable .wrongShape)) ∧
      (∀ (text : String) before after first second key value,
        p.WrittenAs (before ++ ("lexerOptions", .object (first ++ second)) :: after) →
        Json.IsSurplus (optionFields.map Field.key) Options.IsEntry first (key, value) second →
        Json.Denotes text.toList
          (.object (before ++ ("lexerOptions", .object (first ++ (key, value) :: second)) ::
            after)) →
        parse text = .error (.unreadable .wrongShape)) := by
  have parse_of_rejects {text : String} {value : Value}
      (rejects : Reader.Rejects (Json.readRecord fields standard) value.lexemes)
      (denotes : Json.Denotes text.toList value) :
      parse text = .error (.unreadable .wrongShape) := by
    rw [parse, Json.readText_of_rejects denotes rejects]
  refine ⟨fun text written denotes writes => ?_, ?_, ?_⟩
  · have fits : Options.isTabWidth p.options.tabWidth = true ↔
        1 ≤ p.options.tabWidth ∧ p.options.tabWidth ≤ 64 := by
      simp only [Options.isTabWidth, Bool.and_eq_true, decide_eq_true_eq]
      exact Iff.rfl
    rw [parse, Json.readText_of_takes denotes writes.takes]
    simp only [fits]
  · exact fun text before after key value writes surplus denotes =>
      parse_of_rejects (writes.rejects surplus) denotes
  · exact fun text before after first second key value writes surplus denotes =>
      parse_of_rejects (writes.rejects_within surplus) denotes

/-- Too wide a tab, a key that no project has, and a key twice. -/
theorem parse_written_of_wide_tab :
    parse "\x7b\"lexerOptions\":\x7b\"tabWidth\":65\x7d\x7d" = .error (.tabWidthOutOfRange 65) ∧
      parse "\x7b\"x\":null,\"files\":[\"a.dm\"]\x7d" = .error (.unreadable .wrongShape) ∧
      parse "\x7b\"lexerOptions\":\x7b\"keywords\":true,\"keywords\":true\x7d\x7d" =
        .error (.unreadable .wrongShape) := by
  have denotes {text : String} {lexemes : List Json.Lexeme} {value : Value}
      (value_eq : value.lexemes = lexemes)
      (literals : ∀ literal, .number literal ∈ lexemes → literal = toString 65)
      (written : Json.compact lexemes = text.toList) : Json.Denotes text.toList value := by
    have numbers : Json.NumbersAre Json.IsLiteral lexemes := by
      rintro lexeme member literal rfl
      exact literals literal member ▸ Json.isNumber_toString 65
    rw [Json.Denotes, value_eq, ← written]
    exact (Json.laid_compact numbers).mono fun _ _ printed => printed.spelled
  have wide : (Project.mk ⟨true, false, false, 65, true⟩ []).WrittenAs
      [("lexerOptions", .object [("tabWidth", .natural 65)])] :=
    { own := List.forall_mem_singleton.2 (.options
        { own := List.forall_mem_singleton.2 (by simp [Options.entries])
          once := by decide
          standard := by simp [Options.entries, Options.standard, keys] })
      once := by decide
      options := fun absent => absurd List.mem_cons_self absent
      files := fun _ => rfl }
  have files : (Project.mk .standard ["a.dm"]).WrittenAs
      ([] ++ [("files", .array [.string "a.dm"])]) :=
    { own := List.forall_mem_singleton.2 .files
      once := by decide
      options := fun _ => rfl
      files := fun absent => absurd List.mem_cons_self absent }
  have keywords : (Project.mk ⟨true, false, true, 8, true⟩ []).WrittenAs
      ([] ++ ("lexerOptions", .object ([] ++ [("keywords", .bool true)])) :: []) :=
    { own := List.forall_mem_singleton.2 (.options
        { own := List.forall_mem_singleton.2 (by simp [Options.entries])
          once := by decide
          standard := by simp [Options.entries, Options.standard, keys] })
      once := by decide
      options := fun absent => absurd List.mem_cons_self absent
      files := fun _ => rfl }
  refine ⟨?_, ?_, ?_⟩
  · exact (parse_written _).1 _ _
      (denotes (by simp [Value.lexemes, Value.natural, Json.object]; rfl) (by simp) (by rfl)) wide
  · exact (parse_written _).2.1 _ _ _ "x" .null files (.inl (by decide))
      (denotes (by simp [Value.lexemes, Json.object, Json.array]; rfl) (by simp) (by rfl))
  · have repeated : Options.IsEntry ("keywords", .bool true) :=
      ⟨⟨true, false, true, 8, true⟩, .tail _ (.tail _ (.head _))⟩
    exact (parse_written _).2.2 _ _ _ _ _ "keywords" (.bool true) keywords
      (.inr (.inr ⟨.head _, repeated⟩))
      (denotes (by simp [Value.lexemes, Json.object]; rfl) (by simp) (by rfl))
end Project

end DreamLexer
