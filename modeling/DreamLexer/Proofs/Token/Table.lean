import DreamLexer.Token.Kind

/-!
# Tables of spellings

A table in which no spelling stands twice is looked up exactly where a spelling stands. The reserved
words are such a table, so a word is reserved just if the table has it: `ofReserved?_eq_some_iff`.
-/

namespace DreamLexer

/-- A key that stands once is looked up exactly where it stands. -/
theorem lookup_eq_some_iff_mem {κ ν : Type} [BEq κ] [LawfulBEq κ] {entries : List (κ × ν)} {key : κ}
    {value : ν} (once : (entries.map Prod.fst).Nodup) :
    entries.lookup key = some value ↔ (key, value) ∈ entries := by
  constructor
  · intro found
    obtain ⟨before, after, split, -⟩ := List.lookup_eq_some_iff.1 found
    simp [split]
  · intro member
    obtain ⟨before, after, split⟩ := List.append_of_mem member
    rw [split, List.map_append, List.nodup_append] at once
    refine List.lookup_eq_some_iff.2 ⟨before, after, split, fun entry earlier => ?_⟩
    have apart : entry.1 ≠ key :=
      once.2.2 entry.1 (List.mem_map_of_mem earlier) key (List.mem_cons_self ..)
    simpa using apart.symm

theorem Keyword.ofSpelling?_eq_some_iff {spelling : String} {word : Keyword} :
    Keyword.ofSpelling? spelling = some word ↔ (spelling, word) ∈ Keyword.table :=
  lookup_eq_some_iff_mem (by decide)

/-- A spelling is reserved just if it stands in the table, and has the kind of its word there. -/
theorem TokenKind.ofReserved?_eq_some_iff {spelling : String} {kind : TokenKind} :
    TokenKind.ofReserved? spelling = some kind ↔
      ∃ word, (spelling, word) ∈ Keyword.table ∧ kind = .keyword word := by
  rw [TokenKind.ofReserved?, Option.map_eq_some_iff]
  constructor
  · intro known
    obtain ⟨word, found, same⟩ := known
    exact ⟨word, Keyword.ofSpelling?_eq_some_iff.1 found, same.symm⟩
  · intro known
    obtain ⟨word, member, same⟩ := known
    exact ⟨word, Keyword.ofSpelling?_eq_some_iff.2 member, same.symm⟩

end DreamLexer
