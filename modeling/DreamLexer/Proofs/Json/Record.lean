import DreamLexer.Json.Record

/-!
# Fields that are left out

A field of a record is read where its key stands in front of a colon. A part of the record that only
this field writes is therefore left as it was by a text without the key: `readRecord_of_leavesOut`.
-/

namespace DreamLexer.Json

/-- The key stands nowhere in front of a colon. -/
def Lacks (key : String) (items : List Item) : Prop :=
  ¬ [.lexeme (.string key), .lexeme .colon] <:+: items

/-- A record in which a field is left out: an object without its key, or an array without
elements. -/
inductive LeavesOut (key : String) : List Item → Prop
  | object {items : List Item} (lacks : Lacks key items) :
      LeavesOut key (.lexeme .openObject :: items)
  | array (items : List Item) :
      LeavesOut key (.lexeme .openArray :: .lexeme .closeArray :: items)

/-- A reader leaves the items behind those it takes. -/
def Reader.Advances {α : Type} (read : Reader α) : Prop :=
  ∀ ⦃items : List Item⦄ ⦃value : α⦄ ⦃behind : List Item⦄,
    read items = .ok (value, behind) → behind <:+ items

/-- The field leaves a part of the record as it is. -/
def Field.Spares {σ α : Type} (part : σ → α) (field : Field σ) : Prop :=
  ∀ ⦃value : σ⦄ ⦃items : List Item⦄ ⦃value' : σ⦄ ⦃behind : List Item⦄,
    field.read value items = .ok (value', behind) → part value' = part value ∧ behind <:+ items

variable {σ α : Type} {part : σ → α} {key : String} {fields : List (Field σ)} {value value' : σ}
  {items behind : List Item}

theorem Lacks.of_suffix (lacks : Lacks key items) (suffix : behind <:+ items) :
    Lacks key behind :=
  fun stands => lacks (stands.trans suffix.isInfix)

theorem readStrings_advances : Reader.Advances readStrings := by
  intro items value behind read
  fun_induction readStrings items generalizing value with
  | case1 first rest =>
    obtain ⟨-, rfl⟩ := Prod.mk.inj (Except.ok.inj read)
    exact ⟨[_, _], rfl⟩
  | case2 first others ih =>
    cases later : readStrings others with
    | error problem =>
      rw [later] at read
      cases read
    | ok result =>
      rw [later] at read
      obtain ⟨-, rfl⟩ := Prod.mk.inj (Except.ok.inj read)
      exact (ih later).trans ⟨[_, _], rfl⟩
  | case3 => cases read
  | case4 => cases read

theorem readStringArray_advances : Reader.Advances readStringArray := by
  intro items value behind read
  unfold readStringArray at read
  split at read
  next rest =>
    obtain ⟨-, rfl⟩ := Prod.mk.inj (Except.ok.inj read)
    exact ⟨[_, _], rfl⟩
  next others _ => exact (readStrings_advances read).trans (List.suffix_cons _ _)
  next => cases read

/-- Entries of other keys leave the part as it is. -/
theorem readEntries_of_lacks
    (spares : ∀ field ∈ fields, field.key ≠ key → field.Spares part) (lacks : Lacks key items)
    (read : readEntries fields value items = .ok (value', behind)) : part value' = part value := by
  fun_induction readEntries fields value items with
  | case1 => cases read
  | case2 fields value name field found rest _ ih =>
    have named : field.key = name := by simpa using List.find?_some found
    have other : field.key ≠ key := by
      rintro rfl
      rw [← named] at lacks
      exact lacks (List.prefix_append [_, _] rest).isInfix
    have behindColon : Lacks key rest := lacks.of_suffix ⟨[_, _], rfl⟩
    cases taken : field.read value rest with
    | error problem =>
      rw [taken] at read
      cases read
    | ok result =>
      obtain ⟨stored, left⟩ := result
      obtain ⟨kept, suffix⟩ := spares field (List.mem_of_find?_eq_some found) other taken
      simp only [taken, bind, Except.bind] at read
      split at read
      next rest =>
        obtain ⟨rfl, -⟩ := Prod.mk.inj (Except.ok.inj read)
        exact kept
      next others =>
        have later : part value' = part stored :=
          ih stored others (fun field member => spares field (List.mem_of_mem_eraseP member))
            (behindColon.of_suffix ((List.suffix_cons _ _).trans suffix)) read
        exact later.trans kept
      next => cases read
  | case3 => cases read
  | case4 => cases read

/-- A part of a record whose field is left out is as it was. -/
theorem readRecord_of_leavesOut
    (spares : ∀ field ∈ fields, field.key ≠ key → field.Spares part) (out : LeavesOut key items)
    (read : readRecord fields value items = .ok (value', behind)) : part value' = part value := by
  cases out with
  | object lacks =>
    unfold readRecord at read
    split at read
    next rest same =>
      obtain ⟨rfl, -⟩ := Prod.mk.inj (Except.ok.inj read)
      rfl
    next others _ same =>
      obtain rfl := (List.cons.inj same).2
      exact readEntries_of_lacks spares lacks read
    next same => cases same
    next same => cases same
    next => cases read
  | array others =>
    obtain ⟨rfl, -⟩ := Prod.mk.inj (Except.ok.inj read)
    rfl

end DreamLexer.Json
