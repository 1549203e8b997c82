/-!
# Writing that tells where it ends

What is written for a thing is delimited if it tells the thing and its end, whatever follows. Then
so is what is written for many things one after the other (`delimited_flatMap`), also with a
separator between them (`delimited_intercalate`), if it ends with a sign that none of them starts
with.
-/

namespace DreamLexer

/-- A list put together with a separator is its first part and the others, each with a separator
in front. -/
theorem intercalate_cons {α : Type} (separator first : List α) (others : List (List α)) :
    separator.intercalate (first :: others) = first ++ others.flatMap (separator ++ ·) := by
  induction others generalizing first with
  | nil => simp [List.intercalate_singleton]
  | cons second others ih =>
    rw [List.intercalate_cons_cons, ih]
    simp

/-- The parts in front of one of them, each with a separator behind, and the others. -/
theorem intercalate_append_cons {α : Type} (separator part : List α)
    (before after : List (List α)) :
    separator.intercalate (before ++ part :: after) =
      before.flatMap (· ++ separator) ++ separator.intercalate (part :: after) := by
  induction before with
  | nil => rfl
  | cons first before ih =>
    have next : before ++ part :: after ≠ [] := by simp
    obtain ⟨second, others, split⟩ := List.exists_cons_of_ne_nil next
    rw [List.cons_append, split, List.intercalate_cons_cons, ← split, ih]
    simp

namespace Text

variable {α β : Type}

/-- What is written for `a` tells that it is `a`, and where it ends. -/
def Delimited (code : α → List β) (a : α) : Prop :=
  ∀ ⦃b : α⦄ ⦃rest other : List β⦄, code a ++ rest = code b ++ other → a = b ∧ rest = other

section Separators

variable {mark : β} {first second rest other : List β}

/-- Texts are parted by the first mark in them. -/
theorem append_mark_inj (absent : mark ∉ first) (absent' : mark ∉ second)
    (same : first ++ mark :: rest = second ++ mark :: other) : first = second ∧ rest = other := by
  rcases List.append_eq_append_iff.1 same with ⟨more, rfl, split⟩ | ⟨more, rfl, split⟩
  · cases more with
    | nil => exact ⟨(List.append_nil _).symm, (List.cons.inj split).2⟩
    | cons c more =>
      obtain rfl := (List.cons.inj split).1
      exact absurd (by simp) absent'
  · cases more with
    | nil => exact ⟨List.append_nil _, (List.cons.inj split).2.symm⟩
    | cons c more =>
      obtain rfl := (List.cons.inj split).1
      exact absurd (by simp) absent

/-- Texts are parted by the last mark in them. -/
theorem append_last_mark_inj (absent : mark ∉ rest) (absent' : mark ∉ other)
    (same : first ++ mark :: rest = second ++ mark :: other) : first = second ∧ rest = other := by
  have reversed :
      rest.reverse ++ mark :: first.reverse = other.reverse ++ mark :: second.reverse := by
    simpa using congrArg List.reverse same
  have none_behind : mark ∉ rest.reverse := by simpa using absent
  have none_behind' : mark ∉ other.reverse := by simpa using absent'
  obtain ⟨behind, front⟩ := append_mark_inj none_behind none_behind' reversed
  exact ⟨List.reverse_inj.1 front, List.reverse_inj.1 behind⟩

/-- A text ends in front of the first one that has not the property all of it has. -/
theorem takeWhile_dropWhile_of_stops {p : β → Bool} (inside : ∀ b ∈ first, p b = true)
    (stops : ∀ b ∈ rest.head?, p b = false) :
    (first ++ rest).takeWhile p = first ∧ (first ++ rest).dropWhile p = rest := by
  rw [List.takeWhile_append_of_pos inside, List.dropWhile_append_of_pos inside]
  cases rest with
  | nil => simp
  | cons b rest =>
    have here : ¬ p b = true := by simp [stops b rfl]
    rw [List.takeWhile_cons_of_neg here, List.dropWhile_cons_of_neg here, List.append_nil]
    exact ⟨rfl, rfl⟩

end Separators

variable {code : α → List β} {as : List α}

theorem delimited_flatMap (stop : β) (each : ∀ a ∈ as, Delimited code a)
    (starts : ∀ a, ∃ first others, code a = first :: others ∧ first ≠ stop) :
    Delimited (fun as => as.flatMap code ++ [stop]) as := by
  induction as with
  | nil =>
    intro bs rest other same
    cases bs with
    | nil => exact ⟨rfl, (List.cons.inj same).2⟩
    | cons b bs =>
      obtain ⟨first, others, written, different⟩ := starts b
      simp only [List.flatMap_nil, List.flatMap_cons, written] at same
      exact absurd (List.cons.inj same).1.symm different
  | cons a as ih =>
    obtain ⟨here, later⟩ := List.forall_mem_cons.1 each
    intro bs rest other same
    cases bs with
    | nil =>
      obtain ⟨first, others, written, different⟩ := starts a
      simp only [List.flatMap_nil, List.flatMap_cons, written] at same
      exact absurd (List.cons.inj same).1 different
    | cons b bs =>
      simp only [List.flatMap_cons, List.append_assoc] at same
      obtain ⟨rfl, same⟩ := here same
      obtain ⟨rfl, rest_eq⟩ := ih later (by simpa using same)
      exact ⟨rfl, rest_eq⟩

theorem delimited_intercalate (separator stop : β) (each : ∀ a ∈ as, Delimited code a)
    (starts : ∀ a, ∃ first others, code a = first :: others ∧ first ≠ stop)
    (apart : separator ≠ stop) :
    Delimited (fun as => [separator].intercalate (as.map code) ++ [stop]) as := by
  intro bs rest other same
  cases as with
  | nil =>
    cases bs with
    | nil => exact ⟨rfl, (List.cons.inj same).2⟩
    | cons b bs =>
      obtain ⟨first, others, written, different⟩ := starts b
      simp only [List.map_cons, intercalate_cons, written] at same
      exact absurd (List.cons.inj same).1.symm different
  | cons a as =>
    obtain ⟨here, later⟩ := List.forall_mem_cons.1 each
    cases bs with
    | nil =>
      obtain ⟨first, others, written, different⟩ := starts a
      simp only [List.map_cons, intercalate_cons, written] at same
      exact absurd (List.cons.inj same).1 different
    | cons b bs =>
      have behind : ∀ a ∈ as, Delimited (fun a => [separator] ++ code a) a := by
        intro a member b rest other same
        exact later a member (by simpa using same)
      simp only [List.map_cons, intercalate_cons, List.append_assoc] at same
      obtain ⟨rfl, same⟩ := here same
      have ends := delimited_flatMap stop behind fun a => ⟨separator, code a, rfl, apart⟩
      obtain ⟨rfl, rest_eq⟩ := ends (by simpa [List.flatMap_map] using same)
      exact ⟨rfl, rest_eq⟩

end Text

end DreamLexer
