import DreamLexer.Command.Disk
import DreamLexer.Proofs.Project.Components

/-!
# Paths that lead to a file

Every step along a path is taken from a directory, so the names on the way are names of the files in
it, also those that two dots lead back from. A path that leads to a file is therefore made of
slashes, dots and what stands in the paths of files: `shows_of_text?`.
-/

namespace DreamLexer

namespace Path

variable {c : Char} {path segment : List Char}

theorem mem_of_mem_segments (part : segment ∈ segments path) (member : c ∈ segment) : c ∈ path := by
  obtain ⟨first, others, parts⟩ := List.exists_cons_of_ne_nil (segments_ne_nil path)
  rw [← ofSegments_segments path, parts, ofSegments_cons, List.mem_append, List.mem_flatMap]
  rw [parts] at part
  rcases List.mem_cons.1 part with rfl | later
  · exact .inl member
  · exact .inr ⟨segment, later, List.mem_cons_of_mem '/' member⟩

/-- A character of a path is a slash or stands between slashes. -/
theorem exists_segment (member : c ∈ path) (other : c ≠ '/') :
    ∃ segment ∈ segments path, c ∈ segment := by
  obtain ⟨first, others, parts⟩ := List.exists_cons_of_ne_nil (segments_ne_nil path)
  rw [← ofSegments_segments path, parts, ofSegments_cons, List.mem_append, List.mem_flatMap]
    at member
  rw [parts]
  rcases member with here | ⟨segment, part, inside⟩
  · exact ⟨first, List.mem_cons_self, here⟩
  · exact ⟨segment, List.mem_cons_of_mem first part, (List.mem_cons.1 inside).resolve_left other⟩

end Path

namespace Command.Directory

variable {directory : Directory} {c : Char} {name : List Char} {place other : List (List Char)}
  {path : String}

/-- The path of a file has this character. -/
def Shows (directory : Directory) (c : Char) : Prop := ∃ file ∈ directory.files, c ∈ file.1.toList

theorem shows_of_names {file : String × ByteArray} (held : file ∈ directory.files)
    (along : name ∈ names file.1.toList) (member : c ∈ name) : directory.Shows c :=
  ⟨file, held, Path.mem_of_mem_segments (List.mem_filter.1 along).1 member⟩

theorem shows_of_isDirectory (stands : directory.isDirectory place) (part : name ∈ place)
    (member : c ∈ name) : directory.Shows c := by
  rw [isDirectory, Bool.or_eq_true, List.isEmpty_iff, List.any_eq_true] at stands
  rcases stands with rfl | ⟨file, held, above⟩
  · exact absurd part List.not_mem_nil
  · have starts : place <+: names file.1.toList :=
      List.isPrefixOf_iff_prefix.1 (Bool.and_eq_true_iff.1 above).1
    exact shows_of_names held (starts.subset part) member

theorem shows_of_file? {bytes : ByteArray} (stands : directory.file? place = some bytes)
    (part : name ∈ place) (member : c ∈ name) : directory.Shows c := by
  obtain ⟨file, found, -⟩ := Option.map_eq_some_iff.1 stands
  have same : names file.1.toList = place := by simpa using List.find?_some found
  exact shows_of_names (List.mem_of_find?_eq_some found) (same ▸ part) member

/-- The names that are followed to a place of files are made of what stands in their paths. -/
theorem shows_of_follow {segments : List (List Char)}
    (followed : directory.follow place segments = some other)
    (ends : ∀ name ∈ other, ∀ c ∈ name, directory.Shows c) :
    (∀ name ∈ place, ∀ c ∈ name, directory.Shows c) ∧
      ∀ name ∈ segments, ∀ c ∈ name, c ≠ '.' → directory.Shows c := by
  induction segments generalizing place with
  | nil =>
    obtain rfl := Option.some.inj followed
    exact ⟨ends, List.forall_mem_nil _⟩
  | cons segment segments ih =>
    rw [follow] at followed
    cases stands : directory.isDirectory place with
    | false => simp [stands] at followed
    | true =>
      have before : ∀ name ∈ place, ∀ c ∈ name, directory.Shows c :=
        fun name part c member => shows_of_isDirectory stands part member
      refine ⟨before, ?_⟩
      rw [stands, Bool.not_true, if_neg Bool.false_ne_true] at followed
      rw [List.forall_mem_cons]
      by_cases silent : Path.isSilent segment
      · rw [if_pos silent] at followed
        refine ⟨?_, (ih followed).2⟩
        intro c member dot
        rcases (by simpa [Path.isSilent] using silent : segment = [] ∨ segment = ['.'])
          with rfl | rfl
        · exact absurd member List.not_mem_nil
        · exact absurd (List.mem_singleton.1 member) dot
      · rw [if_neg silent] at followed
        by_cases dots : segment = ['.', '.']
        · rw [if_pos dots] at followed
          obtain ⟨-, followed⟩ := Option.ite_none_left_eq_some.1 followed
          refine ⟨?_, (ih followed).2⟩
          intro c member dot
          rw [dots] at member
          simp [dot] at member
        · rw [if_neg dots] at followed
          obtain ⟨passed, later⟩ := ih followed
          exact ⟨fun c member _ => passed segment (by simp) c member, later⟩

/-- A path that leads to a file has slashes, dots and characters of paths of files, and the text is
that of one of the files. -/
theorem shows_of_text? {text : String} (read : directory.disk.text? path = some text) :
    (∀ c ∈ path.toList, c ≠ '/' → c ≠ '.' → directory.Shows c) ∧
      ∃ file ∈ directory.files, String.fromUTF8? file.2 = some text := by
  obtain ⟨place, located, read⟩ := Option.bind_eq_some_iff.1 read
  obtain ⟨bytes, stands, decoded⟩ := Option.bind_eq_some_iff.1 read
  constructor
  · intro c member slash dot
    obtain ⟨-, followed⟩ := Option.ite_none_left_eq_some.1 located
    obtain ⟨-, along⟩ := shows_of_follow followed
      fun name part c member => shows_of_file? stands part member
    obtain ⟨segment, part, inside⟩ := Path.exists_segment member slash
    exact along segment part c inside dot
  · obtain ⟨file, found, rfl⟩ := Option.map_eq_some_iff.1 stands
    exact ⟨file, List.mem_of_find?_eq_some found, decoded⟩

end Command.Directory

end DreamLexer
