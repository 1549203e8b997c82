import DreamLexer.Proofs.Json.Reading

/-!
# Objects are read entry by entry

A record is read from the entries of an object in whatever order they stand. Entries lead from one
record to another if each of them is read by the field with its key (`Leads`); an object of them is
then read as a whole (`takes_object`). An entry behind them whose key is unknown, or was read
before, is rejected as soon as its key is read (`rejects_key`), so there is no place for one entry
more (`rejects_inserted`).
-/

namespace DreamLexer.Json

variable {σ : Type}

/-- The fields whose keys were not read. -/
def unread (fields : List (Field σ)) (read : List String) : List (Field σ) :=
  fields.filter fun field => !read.contains field.key

/-- The keys of entries. -/
def keys (entries : List (String × Value)) : List String := entries.map Prod.fst

/-- The entry is that of a field, which reads its value into every record. -/
def Readable (fields : List (Field σ)) (entry : String × Value) : Prop :=
  ∃ field ∈ fields, field.key = entry.1 ∧
    ∀ record, ∃ next, Reader.Takes (field.read record) entry.2.lexemes next

/-- The entries lead from one record to another, each read by the field with its key. -/
inductive Leads (fields : List (Field σ)) : List (String × Value) → σ → σ → Prop
  | nil (record : σ) : Leads fields [] record record
  | cons {field : Field σ} {value : Value} {entries : List (String × Value)} {record next last : σ}
      (member : field ∈ fields) (takes : Reader.Takes (field.read record) value.lexemes next)
      (others : Leads fields entries next last) :
      Leads fields ((field.key, value) :: entries) record last

/-- The entry is one more than there may be: its key is unknown, or stands in front of it, or
stands behind it while the entry itself is valid. -/
def IsSurplus (known : List String) (valid : String × Value → Prop)
    (before : List (String × Value)) (entry : String × Value) (after : List (String × Value)) :
    Prop :=
  entry.1 ∉ known ∨ entry.1 ∈ keys before ∨ (entry.1 ∈ keys after ∧ valid entry)

theorem IsSurplus.mono {known : List String} {valid weaker : String × Value → Prop}
    {before after : List (String × Value)} {entry : String × Value}
    (surplus : IsSurplus known valid before entry after)
    (implies : ∀ entry, valid entry → weaker entry) : IsSurplus known weaker before entry after :=
  surplus.imp_right (Or.imp_right (And.imp_right (implies entry)))

/-- Entries with a comma behind each of them. -/
def passed (entries : List (String × Value)) : List Lexeme :=
  entries.flatMap fun entry => entryLexemes entry ++ [.comma]

theorem keys_append (before after : List (String × Value)) :
    keys (before ++ after) = keys before ++ keys after :=
  List.map_append

section Fields

variable {fields : List (Field σ)} {field : Field σ} {read : List String} {key : String}

theorem find?_of_mem (distinct : (fields.map Field.key).Nodup) (member : field ∈ fields) :
    fields.find? (·.key == field.key) = some field := by
  induction fields with
  | nil => cases member
  | cons first fields ih =>
    obtain ⟨once, distinct⟩ := List.nodup_cons.1 distinct
    rcases List.mem_cons.1 member with rfl | later
    · exact List.find?_cons_of_pos (beq_self_eq_true _)
    · have other : first.key ≠ field.key := by
        intro same
        exact once (List.mem_map.2 ⟨field, later, same.symm⟩)
      rw [List.find?_cons_of_neg (by simpa using other), ih distinct later]

theorem eraseP_eq_filter (distinct : (fields.map Field.key).Nodup) (key : String) :
    fields.eraseP (·.key == key) = fields.filter fun field => field.key != key := by
  induction fields with
  | nil => rfl
  | cons first fields ih =>
    obtain ⟨once, distinct⟩ := List.nodup_cons.1 distinct
    by_cases same : first.key = key
    · have others : ∀ field ∈ fields, (field.key != key) = true := by
        intro field member
        rw [bne_iff_ne]
        rintro rfl
        exact once (List.mem_map.2 ⟨field, member, same.symm⟩)
      rw [List.eraseP_cons_of_pos (by simpa using same),
        List.filter_cons_of_neg (by simpa using same), List.filter_eq_self.2 others]
    · rw [List.eraseP_cons_of_neg (by simpa using same),
        List.filter_cons_of_pos (by simpa using same), ih distinct]

theorem distinct_unread (distinct : (fields.map Field.key).Nodup) (read : List String) :
    ((unread fields read).map Field.key).Nodup :=
  distinct.sublist (List.filter_sublist.map _)

theorem find?_unread (distinct : (fields.map Field.key).Nodup) (member : field ∈ fields)
    (fresh : field.key ∉ read) : (unread fields read).find? (·.key == field.key) = some field :=
  find?_of_mem (distinct_unread distinct read) (List.mem_filter.2 ⟨member, by simpa using fresh⟩)

theorem find?_unread_eq_none (known : (∀ field ∈ fields, field.key ≠ key) ∨ key ∈ read) :
    (unread fields read).find? (·.key == key) = none := by
  rw [List.find?_eq_none]
  intro field member same
  obtain ⟨member, fresh⟩ := List.mem_filter.1 member
  obtain rfl : field.key = key := by simpa using same
  rcases known with unknown | present
  · exact unknown field member rfl
  · simp [present] at fresh

theorem eraseP_unread (distinct : (fields.map Field.key).Nodup) (read : List String)
    (key : String) :
    (unread fields read).eraseP (·.key == key) = unread fields (read ++ [key]) := by
  rw [eraseP_eq_filter (distinct_unread distinct read), unread, unread, List.filter_filter]
  refine List.filter_congr fun field _ => ?_
  by_cases same : field.key = key <;> by_cases old : field.key ∈ read <;> simp [same, old]

end Fields

section Step

variable {fields : List (Field σ)} {field : Field σ} {key : String} {value : σ}

theorem readEntries_of_unknown (unknown : fields.find? (·.key == key) = none)
    (items : List Item) :
    readEntries fields value (.lexeme (.string key) :: items) = .error .wrongShape := by
  rw [readEntries]
  split
  next => rfl
  next found => cases unknown.symm.trans found

theorem readEntries_of_found (found : fields.find? (·.key == key) = some field)
    (items : List Item) :
    readEntries fields value (.lexeme (.string key) :: .lexeme .colon :: items) =
      (field.read value items).bind fun (value, items) =>
        match items with
        | .lexeme .closeObject :: behind => .ok (value, behind)
        | .lexeme .comma :: items => readEntries (fields.eraseP (·.key == key)) value items
        | items => .error (missingMark items) := by
  rw [readEntries]
  split
  next unknown => cases found.symm.trans unknown
  next found' =>
    obtain rfl := Option.some.inj (found.symm.trans found')
    rfl

end Step

section Entries

variable {fields : List (Field σ)} {field : Field σ} {entries before after : List (String × Value)}
  {read : List String} {key : String} {value : Value} {record last : σ}

theorem itemsOf_append (first second : List Lexeme) :
    itemsOf (first ++ second) = itemsOf first ++ itemsOf second :=
  List.map_append

theorem lexemes_object_append (before : List (String × Value)) (entry : String × Value)
    (after : List (String × Value)) :
    ∃ others, (Value.object (before ++ entry :: after)).lexemes =
        .openObject :: (passed before ++ (entryLexemes entry ++ others)) ∧
      (after = [] → others = [.closeObject]) := by
  refine ⟨(after.map entryLexemes).flatMap ([.comma] ++ ·) ++ [.closeObject], ?_, ?_⟩
  · rw [Value.lexemes_object, List.map_append, List.map_cons, intercalate_append_cons,
      intercalate_cons, List.flatMap_map]
    simp [passed]
  · rintro rfl
    rfl

theorem Leads.of_readable (readable : ∀ entry ∈ entries, Readable fields entry) (record : σ) :
    ∃ last, Leads fields entries record last := by
  induction entries generalizing record with
  | nil => exact ⟨record, .nil record⟩
  | cons entry entries ih =>
    obtain ⟨key, value⟩ := entry
    obtain ⟨⟨field, member, rfl, reads⟩, later⟩ := List.forall_mem_cons.1 readable
    obtain ⟨next, takes⟩ := reads record
    obtain ⟨last, others⟩ := ih later next
    exact ⟨last, .cons member takes others⟩

/-- Entries that are read into a record one by one are read into it all at once. -/
theorem Leads.of_mix {mix : σ → List String → σ} (mix_nil : ∀ record, mix record [] = record)
    (mix_cons : ∀ record key keys, mix (mix record [key]) keys = mix record (key :: keys))
    (stored : ∀ entry ∈ entries, ∃ field ∈ fields, field.key = entry.1 ∧
      ∀ record, Reader.Takes (field.read record) entry.2.lexemes (mix record [entry.1]))
    (record : σ) : Leads fields entries record (mix record (keys entries)) := by
  induction entries generalizing record with
  | nil =>
    rw [keys, List.map_nil, mix_nil]
    exact .nil record
  | cons entry entries ih =>
    obtain ⟨key, value⟩ := entry
    obtain ⟨⟨field, member, rfl, takes⟩, later⟩ := List.forall_mem_cons.1 stored
    have others := ih later (mix record [field.key])
    rw [mix_cons] at others
    exact .cons member (takes record) others

theorem Leads.split (leads : Leads fields (before ++ after) record last) :
    ∃ next, Leads fields before record next ∧ Leads fields after next last := by
  induction before generalizing record with
  | nil => exact ⟨record, .nil record, leads⟩
  | cons entry before ih =>
    cases leads with
    | cons member takes others =>
      obtain ⟨next, front, back⟩ := ih others
      exact ⟨next, .cons member takes front, back⟩

theorem Leads.held (leads : Leads fields entries record last) :
    NumbersAre IsCounter (passed entries) := by
  induction leads with
  | nil => exact .nil
  | cons member takes others ih =>
    exact (NumbersAre.append (.cons rfl (.cons rfl takes.held)) (.cons rfl .nil)).append ih

/-- Entries are passed one by one. -/
theorem Leads.pass (distinct : (fields.map Field.key).Nodup)
    (leads : Leads fields entries record last) (once : (read ++ keys entries).Nodup)
    (items : List Item) :
    readEntries (unread fields read) record (itemsOf (passed entries) ++ items) =
      readEntries (unread fields (read ++ keys entries)) last items := by
  induction leads generalizing read with
  | nil => simp [passed, keys, itemsOf]
  | @cons field value entries record next last member takes others ih =>
    have split : read ++ keys ((field.key, value) :: entries) =
        (read ++ [field.key]) ++ keys entries := by
      simp [keys]
    rw [split] at once ⊢
    have fresh : field.key ∉ read := by
      intro old
      have apart := (List.nodup_append.1 (List.nodup_append.1 once).1).2.2
      exact apart _ old _ List.mem_cons_self rfl
    have taken := takes.taken (.lexeme .comma :: (itemsOf (passed entries) ++ items))
    have whole : itemsOf (passed ((field.key, value) :: entries)) ++ items =
        .lexeme (.string field.key) :: .lexeme .colon ::
          (itemsOf value.lexemes ++ .lexeme .comma :: (itemsOf (passed entries) ++ items)) := by
      simp [passed, entryLexemes, itemsOf]
    rw [whole, readEntries_of_found (find?_unread distinct member fresh), taken, Except.bind,
      eraseP_unread distinct]
    exact ih once

theorem readRecord_of_entry (fields : List (Field σ)) (record : σ)
    (before : List (String × Value)) (key : String) (items : List Item) :
    readRecord fields record
        (.lexeme .openObject :: (itemsOf (passed before) ++ .lexeme (.string key) :: items)) =
      readEntries fields record (itemsOf (passed before) ++ .lexeme (.string key) :: items) := by
  cases before <;> rfl

/-- Behind the entries that are passed, a record is read on. -/
theorem readRecord_pass (distinct : (fields.map Field.key).Nodup)
    (leads : Leads fields entries record last) (once : (keys entries).Nodup) (key : String)
    (items : List Item) :
    readRecord fields record
        (.lexeme .openObject :: (itemsOf (passed entries) ++ .lexeme (.string key) :: items)) =
      readEntries (unread fields (keys entries)) last (.lexeme (.string key) :: items) := by
  have all_unread : unread fields [] = fields := List.filter_eq_self.2 fun _ _ => rfl
  have nothing_twice : ([] ++ keys entries).Nodup := once
  have pass := leads.pass distinct nothing_twice (.lexeme (.string key) :: items)
  rw [all_unread, List.nil_append] at pass
  rw [readRecord_of_entry, pass]

/-- A record is read from the entries of an object. -/
theorem takes_object (distinct : (fields.map Field.key).Nodup)
    (leads : Leads fields entries record last) (once : (keys entries).Nodup) :
    Reader.Takes (readRecord fields record) (Value.object entries).lexemes last := by
  rcases List.eq_nil_or_concat entries with rfl | ⟨before, entry, ends⟩
  · have brackets : (Value.object []).lexemes = [.openObject, .closeObject] := by
      rw [Value.lexemes_object]
      rfl
    cases leads
    rw [brackets]
    exact ⟨.cons rfl (.cons rfl .nil), fun _ => rfl⟩
  · obtain rfl := ends.trans List.concat_eq_append
    obtain ⟨next, front, back⟩ := leads.split
    cases back with
    | @cons field value _ _ _ _ member takes others =>
      cases others
      obtain ⟨others, split, close⟩ := lexemes_object_append before (field.key, value) []
      obtain rfl := close rfl
      rw [keys_append] at once
      have fresh : field.key ∉ keys before := fun old =>
        (List.nodup_append.1 once).2.2 _ old _ List.mem_cons_self rfl
      rw [split]
      constructor
      · exact .cons rfl (front.held.append
          (NumbersAre.append (.cons rfl (.cons rfl takes.held)) (.cons rfl .nil)))
      · intro behind
        have pass := readRecord_pass distinct front (List.nodup_append.1 once).1 field.key
          (.lexeme .colon :: (itemsOf value.lexemes ++ .lexeme .closeObject :: behind))
        rw [readEntries_of_found (find?_unread distinct member fresh), takes.taken, Except.bind]
          at pass
        simpa [itemsOf, entryLexemes] using pass

/-- An object is rejected as soon as a key is read that no field has, or that was read before. -/
theorem rejects_key (distinct : (fields.map Field.key).Nodup)
    (readable : ∀ entry ∈ before, Readable fields entry) (once : (keys before).Nodup)
    (known : (∀ field ∈ fields, field.key ≠ key) ∨ key ∈ keys before) (record : σ) (value : Value)
    (after : List (String × Value)) :
    Reader.Rejects (readRecord fields record)
      (Value.object (before ++ (key, value) :: after)).lexemes := by
  obtain ⟨last, leads⟩ := Leads.of_readable readable record
  obtain ⟨others, split, -⟩ := lexemes_object_append before (key, value) after
  refine ⟨.openObject :: (passed before ++ [.string key]), .colon :: (value.lexemes ++ others),
    ?_, ?_, ?_⟩
  · rw [split]
    simp [entryLexemes]
  · exact .cons rfl (leads.held.append (.cons rfl .nil))
  · intro behind
    have pass := readRecord_pass distinct leads once key behind
    rw [readEntries_of_unknown (find?_unread_eq_none known)] at pass
    simpa [itemsOf] using pass

/-- An object is rejected if the value of one of its fields is. -/
theorem rejects_value (distinct : (fields.map Field.key).Nodup)
    (readable : ∀ entry ∈ before, Readable fields entry)
    (once : (keys (before ++ (field.key, value) :: after)).Nodup) (member : field ∈ fields)
    {wrong : Value} (rejects : ∀ record, Reader.Rejects (field.read record) wrong.lexemes)
    (record : σ) :
    Reader.Rejects (readRecord fields record)
      (Value.object (before ++ (field.key, wrong) :: after)).lexemes := by
  obtain ⟨last, leads⟩ := Leads.of_readable readable record
  obtain ⟨first, second, within, held, rejected⟩ := rejects last
  obtain ⟨others, split, -⟩ := lexemes_object_append before (field.key, wrong) after
  rw [keys_append] at once
  have fresh : field.key ∉ keys before := fun old =>
    (List.nodup_append.1 once).2.2 _ old _ List.mem_cons_self rfl
  refine ⟨.openObject :: (passed before ++ ([.string field.key, .colon] ++ first)),
    second ++ others, ?_, ?_, ?_⟩
  · rw [split, entryLexemes, within]
    simp
  · exact .cons rfl (leads.held.append (.cons rfl (.cons rfl held)))
  · intro behind
    have pass := readRecord_pass distinct leads (List.nodup_append.1 once).1 field.key
      (.lexeme .colon :: (itemsOf first ++ behind))
    rw [readEntries_of_found (find?_unread distinct member fresh), rejected, Except.bind] at pass
    simpa [itemsOf] using pass

/-- One entry more is rejected, wherever it is put among entries that are read. -/
theorem rejects_inserted (distinct : (fields.map Field.key).Nodup)
    (readable : ∀ entry ∈ before ++ after, Readable fields entry)
    (once : (keys (before ++ after)).Nodup)
    (surplus : IsSurplus (fields.map Field.key) (Readable fields) before (key, value) after)
    (record : σ) :
    Reader.Rejects (readRecord fields record)
      (Value.object (before ++ (key, value) :: after)).lexemes := by
  obtain ⟨readable_before, readable_after⟩ := List.forall_mem_append.1 readable
  have once_before : (keys before).Nodup :=
    once.sublist ((List.sublist_append_left before after).map _)
  rcases surplus with unknown | present | ⟨repeated, valid⟩
  · have no_field : ∀ field ∈ fields, field.key ≠ key := by
      rintro field member rfl
      exact unknown (List.mem_map.2 ⟨field, member, rfl⟩)
    exact rejects_key distinct readable_before once_before (.inl no_field) record value after
  · exact rejects_key distinct readable_before once_before (.inr present) record value after
  · -- The inserted entry is read, and the one behind it that has its key is rejected.
    obtain ⟨⟨name, value'⟩, listed, same⟩ := List.mem_map.1 repeated
    obtain rfl : key = name := same.symm
    obtain ⟨between, others, rfl⟩ := List.append_of_mem listed
    have entries : before ++ (key, value) :: (between ++ (key, value') :: others) =
        (before ++ (key, value) :: between) ++ (key, value') :: others := by
      simp
    have moved : (keys (before ++ (key, value) :: between) ++ keys others).Perm
        (keys (before ++ (between ++ (key, value') :: others))) := by
      simp only [keys_append, List.append_assoc]
      exact (List.perm_middle.symm).append_left (keys before)
    have front : ∀ entry ∈ before ++ (key, value) :: between, Readable fields entry := by
      have readable_between := (List.forall_mem_append.1 readable_after).1
      exact List.forall_mem_append.2
        ⟨readable_before, List.forall_mem_cons.2 ⟨valid, readable_between⟩⟩
    rw [entries]
    exact rejects_key distinct front (List.nodup_append.1 (moved.nodup_iff.2 once)).1
      (.inr (by simp [keys])) record value' others

end Entries

end DreamLexer.Json
