import DreamLexer.Json.Reading

/-!
# Records in JSON

A record is written as an object, whose entries may come in any order and may be missing, or as an
array of the first of its fields in their order. A record is read field by field into a value that
starts out with all defaults. An entry that is unknown or stands twice is a problem as soon as its
key is read.
-/

namespace DreamLexer.Json

/-- A reader takes a value off the items and gives the items behind it. -/
abbrev Reader (α : Type) := List Item → Except Problem (α × List Item)

/-- A field of a record: its key, and how its value is read into the record. -/
structure Field (σ : Type) where
  key : String
  read : σ → Reader σ

/-- The problem of items that do not start with the value wanted. -/
def mismatch : List Item → Problem
  | [] => .endsEarly
  | .brokenString problem :: _ => problem
  | .broken problem :: _ => problem
  | .lexeme (.string _) :: _ => .wrongShape
  | .lexeme (.number _) :: _ => .wrongShape
  | .lexeme (.bool _) :: _ => .wrongShape
  | .lexeme .null :: _ => .wrongShape
  | .lexeme .openArray :: _ => .wrongShape
  | .lexeme .openObject :: _ => .wrongShape
  | .lexeme .closeArray :: _ => .malformed
  | .lexeme .closeObject :: _ => .malformed
  | .lexeme .comma :: _ => .malformed
  | .lexeme .colon :: _ => .malformed

/-- The problem of items where a mark is missing. -/
def missingMark : List Item → Problem
  | [] => .endsEarly
  | _ => .malformed

/-- The problem of items where a key is missing. -/
def missingKey : List Item → Problem
  | [] => .endsEarly
  | .brokenString problem :: _ => problem
  | _ => .malformed

/-- Reads a truth value. -/
def readBool : Reader Bool
  | .lexeme (.bool value) :: behind => .ok (value, behind)
  | items => .error (mismatch items)

/-- Reads a natural number that 32 bits can hold. -/
def readCounter : Reader UInt32
  | .lexeme (.number literal) :: behind =>
    match natural? literal.toList with
    | some n => if n < UInt32.size then .ok (UInt32.ofNat n, behind) else .error .wrongShape
    | none => .error .wrongShape
  | items => .error (mismatch items)

/-- Reads the strings of an array up to its end. -/
def readStrings : Reader (List String)
  | .lexeme (.string first) :: .lexeme .closeArray :: behind => .ok ([first], behind)
  | .lexeme (.string first) :: .lexeme .comma :: others => do
    let (strings, behind) ← readStrings others
    .ok (first :: strings, behind)
  | .lexeme (.string _) :: others => .error (missingMark others)
  | items => .error (mismatch items)

/-- Reads an array of strings. -/
def readStringArray : Reader (List String)
  | .lexeme .openArray :: .lexeme .closeArray :: behind => .ok ([], behind)
  | .lexeme .openArray :: items => readStrings items
  | items => .error (mismatch items)

/-- Reads the entries of an object up to its end, for the fields not read yet. -/
def readEntries {σ : Type} (fields : List (Field σ)) (value : σ) : Reader σ
  | .lexeme (.string key) :: items =>
    match _h : fields.find? (·.key == key) with
    | none => .error .wrongShape
    | some field =>
      match items with
      | .lexeme .colon :: items => do
        let (value, items) ← field.read value items
        match items with
        | .lexeme .closeObject :: behind => .ok (value, behind)
        | .lexeme .comma :: items => readEntries (fields.eraseP (·.key == key)) value items
        | items => .error (missingMark items)
      | items => .error (missingMark items)
  | items => .error (missingKey items)
termination_by fields.length
decreasing_by
  have member := List.mem_of_find?_eq_some _h
  have fits := List.find?_some _h
  have := List.length_pos_of_mem member
  rw [List.length_eraseP_of_mem member fits]
  omega

/-- Reads the elements of an array, one a field, up to its end. Behind the element of the last field
nothing but the end may stand. -/
def readElements {σ : Type} (fields : List (Field σ)) (value : σ) : Reader σ := fun items =>
  match fields with
  | [] => .error .malformed
  | field :: fields => do
    let (value, items) ← field.read value items
    match items with
    | .lexeme .closeArray :: behind => .ok (value, behind)
    | .lexeme .comma :: items => readElements fields value items
    | items => .error (missingMark items)

/-- Reads a record, starting from `value`. -/
def readRecord {σ : Type} (fields : List (Field σ)) (value : σ) : Reader σ
  | .lexeme .openObject :: .lexeme .closeObject :: behind => .ok (value, behind)
  | .lexeme .openObject :: items => readEntries fields value items
  | .lexeme .openArray :: .lexeme .closeArray :: behind => .ok (value, behind)
  | .lexeme .openArray :: items => readElements fields value items
  | items => .error (mismatch items)

/-- Reads a text that is one value and nothing else. -/
def readText {α : Type} (read : Reader α) (text : List Char) : Except Problem α := do
  let (value, behind) ← read (items text)
  if behind.isEmpty then .ok value else .error .malformed

end DreamLexer.Json
