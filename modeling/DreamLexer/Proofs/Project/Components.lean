import DreamLexer.Project.Path
import DreamLexer.Proofs.Text.Delimited
import Mathlib.Data.List.Forall2
import Mathlib.Logic.Relation

/-!
# Components of paths

A path is told by its components: the root or a dot in front, and names. The way of a path leaves
the dot out. What it says does not depend on how the path is spelled: slashes may be repeated, may
stand at the end, and dots may stand between them (`Path.respelled_congr`). A project's files are
found on the way of the project file without its last component: `resolve_relative`.
-/

namespace DreamLexer

namespace Path

/-- What a path is made of. Two dots are a name like any other. -/
inductive Component where
  | root
  /-- A single dot in front. -/
  | here
  | name (text : List Char)
deriving DecidableEq

/-- The components of the stretches that name something. -/
def named (parts : List (List Char)) : List Component :=
  (parts.filter fun part => !isSilent part).map .name

/-- The component in front of the names, if there is one. -/
def lead (path : List Char) : List Component :=
  if isAbsolute path then [.root] else if startsAtDot path then [.here] else []

/-- The components of a path. -/
def components (path : List Char) : List Component := lead path ++ named (segments path)

/-- The components without the dot in front. -/
def way (path : List Char) : List Component := (components path).filter (· ≠ .here)

/-- Whether the path has a last component and it is not the root. -/
def EndsBelowRoot (path : List Char) : Prop :=
  ∃ component ∈ (components path).getLast?, component ≠ .root

/-- Spelling a path in another way: a slash more where one stands or at the end, or a dot more
between slashes, behind the last one or in front. -/
inductive Respelled : List Char → List Char → Prop where
  | slash (before behind : List Char) :
      Respelled (before ++ '/' :: behind) (before ++ '/' :: '/' :: behind)
  | dot (before behind : List Char) :
      Respelled (before ++ '/' :: behind) (before ++ '/' :: '.' :: '/' :: behind)
  | lastSlash {path : List Char} (filled : path ≠ []) : Respelled path (path ++ ['/'])
  | lastDot (path : List Char) : Respelled (path ++ ['/']) (path ++ ['/', '.'])
  | firstDot {path : List Char} (filled : path ≠ []) (relative : ¬ isAbsolute path) :
      Respelled path ('.' :: '/' :: path)

section Segments

variable {c : Char} {path rest : List Char} {parts others : List (List Char)}

theorem isAbsolute_iff : isAbsolute path ↔ ∃ rest, path = '/' :: rest := by
  rw [isAbsolute, beq_iff_eq, List.head?_eq_some_iff]

theorem segments_slash_cons (rest : List Char) : segments ('/' :: rest) = [] :: segments rest := by
  rw [segments, if_pos rfl]

/-- A character that is no slash belongs to the first stretch. -/
theorem segments_cons (rest : List Char) (other : c ≠ '/') :
    ∃ first others, segments rest = first :: others ∧
      segments (c :: rest) = (c :: first) :: others := by
  induction rest generalizing c with
  | nil => exact ⟨[], [], rfl, by rw [segments, if_neg other]; rfl⟩
  | cons d rest ih =>
    rw [segments.eq_2 c, if_neg other]
    by_cases slash : d = '/'
    · subst slash
      rw [segments_slash_cons]
      exact ⟨[], segments rest, rfl, rfl⟩
    · obtain ⟨first, others, -, parts⟩ := ih slash
      rw [parts]
      exact ⟨d :: first, others, rfl, rfl⟩

theorem segments_ne_nil (path : List Char) : segments path ≠ [] := by
  cases path with
  | nil => exact List.cons_ne_nil [] []
  | cons c rest =>
    by_cases slash : c = '/'
    · subst slash
      rw [segments_slash_cons]
      exact List.cons_ne_nil [] _
    · obtain ⟨first, others, -, parts⟩ := segments_cons rest slash
      rw [parts]
      exact List.cons_ne_nil _ others

theorem segments_append (before behind : List Char) :
    segments (before ++ '/' :: behind) = segments before ++ segments behind := by
  induction before with
  | nil => exact segments_slash_cons behind
  | cons c before ih =>
    by_cases slash : c = '/'
    · subst slash
      rw [List.cons_append, segments_slash_cons, ih, segments_slash_cons, List.cons_append]
    · obtain ⟨first, others, parts, whole⟩ := segments_cons before slash
      rw [List.cons_append, segments, if_neg slash, ih, parts, whole]
      rfl

theorem segments_of_not_mem (absent : '/' ∉ path) : segments path = [path] := by
  induction path with
  | nil => rfl
  | cons c path ih =>
    obtain ⟨other, absent⟩ := not_or.1 (mt List.mem_cons.2 absent)
    rw [segments, if_neg (Ne.symm other), ih absent]

theorem slash_not_mem_segments : ∀ part ∈ segments path, '/' ∉ part := by
  induction path with
  | nil => simp [segments]
  | cons c path ih =>
    by_cases slash : c = '/'
    · subst slash
      rw [segments_slash_cons]
      exact List.forall_mem_cons.2 ⟨List.not_mem_nil, ih⟩
    · obtain ⟨first, others, parts, whole⟩ := segments_cons path slash
      rw [parts] at ih
      obtain ⟨clear, clear'⟩ := List.forall_mem_cons.1 ih
      rw [whole]
      refine List.forall_mem_cons.2 ⟨?_, clear'⟩
      exact List.not_mem_cons_of_ne_of_not_mem (Ne.symm slash) clear

/-- Stretches put together are parted again. -/
theorem segments_ofSegments {first : List Char} (clear : ∀ part ∈ first :: others, '/' ∉ part) :
    segments (ofSegments (first :: others)) = first :: others := by
  induction others generalizing first with
  | nil =>
    rw [ofSegments, List.intercalate_singleton]
    exact segments_of_not_mem (clear first List.mem_cons_self)
  | cons second others ih =>
    obtain ⟨here, later⟩ := List.forall_mem_cons.1 clear
    rw [ofSegments, List.intercalate_cons_cons, List.append_assoc, List.singleton_append,
      segments_append, segments_of_not_mem here]
    exact congrArg (first :: ·) (ih later)

theorem ofSegments_cons (first : List Char) (others : List (List Char)) :
    ofSegments (first :: others) = first ++ others.flatMap ('/' :: ·) :=
  intercalate_cons ['/'] first others

theorem ofSegments_segments (path : List Char) : ofSegments (segments path) = path := by
  induction path with
  | nil => rfl
  | cons c path ih =>
    by_cases slash : c = '/'
    · subst slash
      obtain ⟨first, others, parts⟩ := List.exists_cons_of_ne_nil (segments_ne_nil path)
      rw [parts, ofSegments_cons] at ih
      rw [segments_slash_cons, parts, ofSegments_cons, List.flatMap_cons, List.nil_append,
        List.cons_append, ih]
    · obtain ⟨first, others, parts, whole⟩ := segments_cons path slash
      rw [parts, ofSegments_cons] at ih
      rw [whole, ofSegments_cons, List.cons_append, ih]

end Segments

section Named

variable {part : List Char} {parts : List (List Char)}

@[simp] theorem named_nil : named [] = [] := rfl

@[simp] theorem named_append (first second : List (List Char)) :
    named (first ++ second) = named first ++ named second := by
  simp [named]

theorem named_cons_of_silent (silent : isSilent part) : named (part :: parts) = named parts := by
  simp [named, silent]

theorem named_cons (loud : ¬ isSilent part) :
    named (part :: parts) = .name part :: named parts := by
  simp [named, loud]

theorem named_of_silent (silent : ∀ part ∈ parts, isSilent part) : named parts = [] := by
  simpa [named] using silent

theorem named_segments_append (before behind : List Char) :
    named (segments (before ++ '/' :: behind)) =
      named (segments before) ++ named (segments behind) := by
  rw [segments_append, named_append]

/-- Nothing is lost if the silent stretches at one end are dropped. -/
theorem named_reverse_dropWhile (parts : List (List Char)) :
    named (parts.dropWhile isSilent).reverse = named parts.reverse := by
  have whole : (parts.takeWhile isSilent) ++ (parts.dropWhile isSilent) = parts :=
    List.takeWhile_append_dropWhile
  have silent : named (parts.takeWhile isSilent).reverse = [] := by
    apply named_of_silent
    intro part member
    exact List.all_eq_true.1 List.all_takeWhile part (List.mem_reverse.1 member)
  calc named (parts.dropWhile isSilent).reverse
      = named ((parts.dropWhile isSilent).reverse ++ (parts.takeWhile isSilent).reverse) := by
        rw [named_append, silent, List.append_nil]
    _ = named parts.reverse := by rw [← List.reverse_append, whole]

theorem here_not_mem_named : .here ∉ named parts := by
  simp [named]

theorem root_not_mem_named : .root ∉ named parts := by
  simp [named]

/-- The stretches of a path that was put together. -/
theorem named_segments_ofSegments (clear : ∀ part ∈ parts, '/' ∉ part) :
    named (segments (ofSegments parts)) = named parts := by
  cases parts with
  | nil => rfl
  | cons first others => rw [segments_ofSegments clear]

end Named

variable {path directory : List Char}

theorem filter_lead_append {others : List Component} (clear : .here ∉ others) :
    (lead path ++ others).filter (· ≠ .here) =
      (if isAbsolute path then [.root] else []) ++ others := by
  have kept : others.filter (· ≠ .here) = others := by
    rw [List.filter_eq_self]
    intro component member
    exact decide_eq_true (ne_of_mem_of_not_mem member clear)
  rw [List.filter_append, kept, lead]
  congr 1
  split
  · rfl
  · split <;> rfl

/-- The way of a path is the root, if it starts there, and its names. -/
theorem way_eq (path : List Char) :
    way path = (if isAbsolute path then [.root] else []) ++ named (segments path) :=
  filter_lead_append here_not_mem_named

theorem startsAtDot_spec (dot : startsAtDot path) :
    ∃ body others, path = '.' :: body ∧ segments body = [] :: others ∧
      segments path = ['.'] :: others := by
  rw [startsAtDot, beq_iff_eq] at dot
  cases path with
  | nil => simp [segments] at dot
  | cons c body =>
    by_cases slash : c = '/'
    · subst slash
      simp [segments_slash_cons] at dot
    · obtain ⟨first, others, parts, whole⟩ := segments_cons body slash
      obtain ⟨rfl, rfl⟩ : c = '.' ∧ first = [] := by simpa [whole] using dot
      exact ⟨body, others, rfl, parts, whole⟩

theorem root_append_drop (path : List Char) : root path ++ path.drop (root path).length = path := by
  rw [root]
  split
  next absolute =>
    obtain ⟨rest, rfl⟩ := isAbsolute_iff.1 absolute
    rfl
  · split
    next dot =>
      obtain ⟨body, -, rfl, -⟩ := startsAtDot_spec dot
      rfl
    · rfl

/-- The names of a path are those behind the part that no directory lies above. -/
theorem named_segments_drop_root (path : List Char) :
    named (segments (path.drop (root path).length)) = named (segments path) := by
  rw [root]
  split
  next absolute =>
    obtain ⟨rest, rfl⟩ := isAbsolute_iff.1 absolute
    rw [segments_slash_cons, named_cons_of_silent rfl]
    rfl
  · split
    next dot =>
      obtain ⟨body, others, rfl, parts, whole⟩ := startsAtDot_spec dot
      have inside : named (segments body) = named others := by
        rw [parts, named_cons_of_silent rfl]
      rw [whole, named_cons_of_silent rfl, ← inside]
      rfl
    · rfl

section Parent

variable {parts : List (List Char)}

/-- The first stretches make up the first part of a path. -/
theorem ofSegments_front (front : parts <+: segments path) : ofSegments parts <+: path := by
  obtain ⟨more, whole⟩ := front
  cases parts with
  | nil => exact List.nil_prefix
  | cons first others =>
    refine ⟨more.flatMap ('/' :: ·), ?_⟩
    rw [← ofSegments_segments path, ← whole, List.cons_append, ofSegments_cons, ofSegments_cons,
      List.flatMap_append, List.append_assoc]

/-- The names of the first stretches of a path behind its root. -/
theorem named_segments_root_append (front : parts <+: segments (path.drop (root path).length)) :
    named (segments (root path ++ ofSegments parts)) = named parts := by
  have clear : ∀ part ∈ parts, '/' ∉ part :=
    fun part member => slash_not_mem_segments part (front.subset member)
  rw [root] at front ⊢
  split at front
  next absolute =>
    rw [if_pos absolute, List.singleton_append, segments_slash_cons, named_cons_of_silent rfl,
      named_segments_ofSegments clear]
  next relative =>
    rw [if_neg relative]
    split at front
    next dot =>
      rw [if_pos dot]
      obtain ⟨body, others, rfl, split, -⟩ := startsAtDot_spec dot
      rw [show ('.' :: body).drop ['.'].length = body from rfl, split] at front
      rcases List.prefix_cons_iff.1 front with rfl | ⟨behind, rfl, -⟩
      · rfl
      · -- The empty stretch in front of the first slash is where the dot goes back.
        have clear' : ∀ part ∈ ['.'] :: behind, '/' ∉ part :=
          List.forall_mem_cons.2 ⟨by decide, (List.forall_mem_cons.1 clear).2⟩
        have path_eq : ['.'] ++ ofSegments ([] :: behind) = ofSegments (['.'] :: behind) := by
          rw [ofSegments_cons, ofSegments_cons, List.nil_append]
        rw [path_eq, segments_ofSegments clear', named_cons_of_silent rfl, named_cons_of_silent rfl]
    next dot =>
      rw [if_neg dot, List.nil_append, named_segments_ofSegments clear]

/-- A path's first part starts at the root just if the path does, unless it is empty. -/
theorem isAbsolute_of_front {front : List Char} (start : front <+: path) (filled : front ≠ []) :
    isAbsolute front = isAbsolute path := by
  obtain ⟨behind, rfl⟩ := start
  obtain ⟨c, front, rfl⟩ := List.exists_cons_of_ne_nil filled
  rfl

theorem isAbsolute_root_append (front : parts <+: segments (path.drop (root path).length)) :
    isAbsolute (root path ++ ofSegments parts) = isAbsolute path := by
  have start : root path ++ ofSegments parts <+: path := by
    have behind : ofSegments parts <+: path.drop (root path).length := ofSegments_front front
    have whole := List.prefix_append_right_inj (root path) |>.2 behind
    rwa [root_append_drop] at whole
  by_cases empty : root path ++ ofSegments parts = []
  · have none_above : root path = [] := (List.append_eq_nil_iff.1 empty).1
    rw [empty]
    by_cases absolute : isAbsolute path
    · simp [root, absolute] at none_above
    · rw [Bool.eq_false_iff.2 absolute]
      rfl
  · exact isAbsolute_of_front start empty

/-- The last stretch that is not silent is the last name. -/
theorem named_of_reverse_dropWhile {last : List Char} {above : List (List Char)}
    (h : parts.reverse.dropWhile isSilent = last :: above) :
    above.reverse <+: parts ∧ named parts = named above.reverse ++ [.name last] := by
  have loud := List.head?_dropWhile_not isSilent parts.reverse
  have suffix := List.dropWhile_suffix isSilent (l := parts.reverse)
  have kept := named_reverse_dropWhile parts.reverse
  rw [List.reverse_reverse] at kept
  rw [h] at loud suffix kept
  constructor
  · have start := List.reverse_prefix.2 suffix
    rw [List.reverse_reverse, List.reverse_cons] at start
    exact (List.prefix_append _ _).trans start
  · rw [← kept, List.reverse_cons, named_append, named_cons (by simpa using loud), named_nil]

/-- The directory that holds a path has all its names but the last one. -/
theorem parent?_spec (h : parent? path = some directory) :
    isAbsolute directory = isAbsolute path ∧
      named (segments directory) = (named (segments path)).dropLast := by
  rw [← named_segments_drop_root path]
  simp only [parent?] at h
  split at h
  next last above behind =>
    obtain rfl := Option.some.inj h
    obtain ⟨start, names⟩ := named_of_reverse_dropWhile behind
    have start' : (above.dropWhile isSilent).reverse <+: above.reverse :=
      List.reverse_prefix.2 (List.dropWhile_suffix isSilent)
    have front := start'.trans start
    refine ⟨isAbsolute_root_append front, ?_⟩
    rw [named_segments_root_append front, named_reverse_dropWhile, names, List.dropLast_concat]
  next none_loud =>
    have silent := named_reverse_dropWhile
      (segments (path.drop (root path).length)).reverse
    rw [none_loud, List.reverse_reverse] at silent
    split at h
    next dot =>
      obtain rfl := Option.some.inj h
      rw [← silent]
      refine ⟨?_, rfl⟩
      rw [← root_append_drop path, dot]
      rfl
    next => simp at h

/-- A relative path without names is a dot. -/
theorem startsAtDot_of_named_eq_nil (filled : path ≠ []) (relative : ¬ isAbsolute path)
    (silent : named (segments path) = []) : startsAtDot path := by
  obtain ⟨c, rest, rfl⟩ := List.exists_cons_of_ne_nil filled
  have other : c ≠ '/' := by simpa [isAbsolute] using relative
  obtain ⟨first, others, -, whole⟩ := segments_cons rest other
  by_cases quiet : isSilent (c :: first)
  · obtain ⟨rfl, rfl⟩ : c = '.' ∧ first = [] := by simpa [isSilent] using quiet
    rw [startsAtDot, whole]
    rfl
  · rw [whole, named_cons quiet] at silent
    simp at silent

/-- Only nothing and the root have no last component below the root. -/
theorem endsBelowRoot_iff :
    EndsBelowRoot path ↔ path ≠ [] ∧ (isAbsolute path → named (segments path) ≠ []) := by
  constructor
  · intro known
    obtain ⟨component, found, below⟩ := known
    constructor
    · rintro rfl
      simp [components, lead, isAbsolute, startsAtDot, segments, named, isSilent] at found
    · intro absolute silent
      rw [components, silent, lead, if_pos absolute] at found
      exact below (Option.some.inj found).symm
  · intro known
    obtain ⟨filled, names⟩ := known
    by_cases silent : named (segments path) = []
    · have relative : ¬ isAbsolute path := fun absolute => names absolute silent
      have dot := startsAtDot_of_named_eq_nil filled relative silent
      refine ⟨.here, ?_, by simp⟩
      rw [components, silent, lead, if_neg relative, if_pos dot]
      rfl
    · have found := List.getLast?_eq_some_getLast silent
      refine ⟨_, ?_, ne_of_mem_of_not_mem (List.getLast_mem silent) root_not_mem_named⟩
      rw [components, List.getLast?_append, found]
      rfl

/-- A path with a last component below the root is held by a directory. -/
theorem exists_parent (last : EndsBelowRoot path) : ∃ directory, parent? path = some directory := by
  simp only [parent?]
  split
  next last above behind => exact ⟨_, rfl⟩
  next none_loud =>
    have silent := named_reverse_dropWhile
      (segments (path.drop (root path).length)).reverse
    rw [none_loud, List.reverse_reverse, named_segments_drop_root] at silent
    obtain ⟨filled, names⟩ := endsBelowRoot_iff.1 last
    have relative : ¬ isAbsolute path := fun absolute => names absolute silent.symm
    have dot := startsAtDot_of_named_eq_nil filled relative silent.symm
    have front : root path = ['.'] := by rw [root, if_neg relative, if_pos dot]
    exact ⟨[], if_pos front⟩

/-- The directory's way is the path without its last component. -/
theorem way_parent (last : EndsBelowRoot path) (h : parent? path = some directory) :
    way directory = (components path).dropLast.filter (· ≠ .here) := by
  obtain ⟨absolute, names⟩ := parent?_spec h
  rw [way_eq, absolute, names, components]
  by_cases silent : named (segments path) = []
  · obtain ⟨filled, loud⟩ := endsBelowRoot_iff.1 last
    have relative : ¬ isAbsolute path := fun absolute => loud absolute silent
    have dot := startsAtDot_of_named_eq_nil filled relative silent
    rw [silent, lead, if_neg relative, if_neg relative, if_pos dot]
    rfl
  · have clear : .here ∉ (named (segments path)).dropLast :=
      fun member => here_not_mem_named (List.dropLast_subset _ member)
    rw [List.dropLast_append_of_ne_nil silent, filter_lead_append clear]

/-- A single component without a slash is held by the directory that has no name. -/
theorem parent?_of_not_mem (filled : path ≠ []) (absent : '/' ∉ path) : parent? path = some [] := by
  have whole := segments_of_not_mem absent
  have relative : ¬ isAbsolute path := by
    intro absolute
    obtain ⟨rest, rfl⟩ := isAbsolute_iff.1 absolute
    exact absent List.mem_cons_self
  by_cases dot : path = ['.']
  · subst dot
    rfl
  · have loud : isSilent path = false := by simp [isSilent, filled, dot]
    have bare : root path = [] := by simp [root, relative, startsAtDot, whole, dot]
    simp [parent?, bare, whole, loud, ofSegments]

end Parent

section Join

/-- Seen from the directory that has no name, a path is as it is. -/
theorem join_nil (path : List Char) : join [] path = path := by
  simp [join]

/-- A relative path seen from a directory starts where the directory does. -/
theorem isAbsolute_join (relative : ¬ isAbsolute path) :
    isAbsolute (join directory path) = isAbsolute directory := by
  rw [join, if_neg relative]
  cases directory with
  | nil => simpa [isAbsolute] using relative
  | cons c directory =>
    split <;> rfl

/-- A relative path goes on where the directory's names end. -/
theorem named_segments_join (relative : ¬ isAbsolute path) :
    named (segments (join directory path)) =
      named (segments directory) ++ named (segments path) := by
  rw [join, if_neg relative]
  split
  next open_end =>
    rcases open_end with rfl | slash
    · rfl
    · obtain ⟨front, rfl⟩ := List.getLast?_eq_some_iff.1 slash
      rw [List.append_assoc, List.singleton_append, segments_append, segments_append]
      simp [segments, named, isSilent]
  next => rw [segments_append, named_append]

/-- From two directories with one way, a path has one way. -/
theorem join_congr {other : List Char} (absolute : isAbsolute other = isAbsolute directory)
    (names : named (segments other) = named (segments directory)) (path : List Char) :
    way (join directory path) = way (join other path) ∧
      isAbsolute (join directory path) = isAbsolute (join other path) := by
  by_cases relative : isAbsolute path
  · rw [join, join, if_pos relative, if_pos relative]
    exact ⟨rfl, rfl⟩
  · rw [way_eq, way_eq (join other path), isAbsolute_join relative, isAbsolute_join relative,
      named_segments_join relative, named_segments_join relative, absolute, names]
    exact ⟨rfl, rfl⟩

end Join

section Respelling

variable {other : List Char}

theorem Respelled.isAbsolute_eq (respelled : Respelled path other) :
    isAbsolute other = isAbsolute path := by
  cases respelled with
  | slash before behind => cases before <;> rfl
  | dot before behind => cases before <;> rfl
  | lastSlash filled =>
    obtain ⟨c, rest, rfl⟩ := List.exists_cons_of_ne_nil filled
    rfl
  | lastDot path => cases path <;> rfl
  | firstDot filled relative =>
    rw [Bool.eq_false_iff.2 relative]
    rfl

theorem Respelled.named_eq (respelled : Respelled path other) :
    named (segments other) = named (segments path) := by
  have empty : named (segments []) = [] := rfl
  have dot : named (segments ['.']) = [] := rfl
  cases respelled with
  | slash before behind =>
    rw [named_segments_append, named_segments_append, ← List.nil_append ('/' :: behind),
      named_segments_append, empty, List.nil_append]
  | dot before behind =>
    rw [named_segments_append, named_segments_append, ← List.singleton_append (x := '.'),
      named_segments_append, dot, List.nil_append]
  | lastSlash filled => rw [named_segments_append, empty, List.append_nil]
  | lastDot path => rw [named_segments_append, named_segments_append, dot, empty]
  | firstDot filled relative =>
    rw [← List.singleton_append (x := '.'), named_segments_append, dot, List.nil_append]

theorem Respelled.isEmpty_eq (respelled : Respelled path other) : other.isEmpty = path.isEmpty := by
  have filled_eq {text : List Char} (filled : text ≠ []) : text.isEmpty = false :=
    List.isEmpty_eq_false_iff.2 filled
  cases respelled with
  | slash before behind => rw [filled_eq (by simp), filled_eq (by simp)]
  | dot before behind => rw [filled_eq (by simp), filled_eq (by simp)]
  | lastSlash filled => rw [filled_eq (by simp), filled_eq filled]
  | lastDot path => rw [filled_eq (by simp), filled_eq (by simp)]
  | firstDot filled relative => rw [filled_eq (by simp), filled_eq filled]

/-- However a path is spelled, it starts where it did and has the same names. -/
theorem respelled_congr (respelled : Relation.EqvGen Respelled path other) :
    isAbsolute other = isAbsolute path ∧ named (segments other) = named (segments path) ∧
      other.isEmpty = path.isEmpty := by
  induction respelled with
  | rel path other respelled =>
    exact ⟨respelled.isAbsolute_eq, respelled.named_eq, respelled.isEmpty_eq⟩
  | refl path => exact ⟨rfl, rfl, rfl⟩
  | symm path other _ ih => exact ⟨ih.1.symm, ih.2.1.symm, ih.2.2.symm⟩
  | trans path middle other _ _ ih ih' =>
    exact ⟨ih'.1.trans ih.1, ih'.2.1.trans ih.2.1, ih'.2.2.trans ih.2.2⟩

theorem EndsBelowRoot.respelled (last : EndsBelowRoot path)
    (respelled : Relation.EqvGen Respelled path other) : EndsBelowRoot other := by
  obtain ⟨absolute, names, empty⟩ := respelled_congr respelled
  rw [endsBelowRoot_iff, ← List.isEmpty_eq_false_iff] at last ⊢
  rwa [absolute, names, empty]

end Respelling

end Path

namespace Project

/-- Where a file of a project is found, for a project file at this path: an absolute file as it is,
and any other on the way of the project file without its last component. -/
structure FoundFrom (projectPath file found : List Char) : Prop where
  absolute : Path.isAbsolute file → found = file
  way : ¬ Path.isAbsolute file → Path.way found =
    (Path.components projectPath).dropLast.filter (· ≠ .here) ++ Path.way file
  start : ¬ Path.isAbsolute file → Path.isAbsolute found = Path.isAbsolute projectPath

variable {project : Project} {path : String}

theorem resolve_of_parent {directory : List Char}
    (parent : Path.parent? path.toList = some directory) :
    project.resolve path =
      project.files.map fun file => String.ofList (Path.join directory file.toList) := by
  rw [resolve, parent, Option.getD_some]

theorem foundFrom_join {directory path : List Char} (last : Path.EndsBelowRoot path)
    (parent : Path.parent? path = some directory) (file : List Char) :
    FoundFrom path file (Path.join directory file) := by
  obtain ⟨absolute, names⟩ := Path.parent?_spec parent
  constructor
  · intro absolute
    rw [Path.join, if_pos absolute]
  · intro relative
    rw [← Path.way_parent last parent, Path.way_eq, Path.way_eq directory, Path.way_eq file,
      Path.isAbsolute_join relative, Path.named_segments_join relative, if_neg relative,
      List.nil_append, List.append_assoc]
  · intro relative
    rw [Path.isAbsolute_join relative, absolute]

/-- The files of a project are found from the directory of the project file, one path for each file
and in their order. -/
theorem resolve_relative (last : Path.EndsBelowRoot path.toList) :
    List.Forall₂ (fun file found => FoundFrom path.toList file.toList found.toList)
        project.files (project.resolve path) ∧
      (∀ other : String, Relation.EqvGen Path.Respelled path.toList other.toList →
        List.Forall₂ (fun found found' => Path.way found.toList = Path.way found'.toList ∧
          Path.isAbsolute found.toList = Path.isAbsolute found'.toList)
          (project.resolve path) (project.resolve other)) ∧
      ('/' ∉ path.toList → project.resolve path = project.files) := by
  obtain ⟨directory, parent⟩ := Path.exists_parent last
  refine ⟨?_, ?_, ?_⟩
  · rw [resolve_of_parent parent, List.forall₂_map_right_iff, List.forall₂_same]
    intro file _
    rw [String.toList_ofList]
    exact foundFrom_join last parent file.toList
  · intro other respelled
    obtain ⟨other_directory, other_parent⟩ := Path.exists_parent (last.respelled respelled)
    obtain ⟨absolute, names⟩ := Path.parent?_spec parent
    obtain ⟨absolute', names'⟩ := Path.parent?_spec other_parent
    obtain ⟨same_start, same_names, -⟩ := Path.respelled_congr respelled
    have start : Path.isAbsolute other_directory = Path.isAbsolute directory := by
      rw [absolute', same_start, absolute]
    have through : Path.named (Path.segments other_directory) =
        Path.named (Path.segments directory) := by
      rw [names', same_names, names]
    rw [resolve_of_parent parent, resolve_of_parent other_parent, List.forall₂_map_left_iff,
      List.forall₂_map_right_iff, List.forall₂_same]
    intro file _
    rw [String.toList_ofList, String.toList_ofList]
    exact Path.join_congr start through file.toList
  · intro absent
    have bare := Path.parent?_of_not_mem (Path.endsBelowRoot_iff.1 last).1 absent
    rw [resolve_of_parent bare]
    conv_rhs => rw [← List.map_id project.files]
    refine List.map_congr_left fun file _ => ?_
    rw [Path.join_nil, String.ofList_toList, id]

/-- A project file whose path holds slashes and dots too many, and one without a directory. -/
theorem resolve_relative_of_loose_path :
    Path.EndsBelowRoot "./code//./dmlex.json/".toList ∧
      (Project.mk .standard ["/lib.dm", "./a//b.dm", ""]).resolve "./code//./dmlex.json/" =
        ["/lib.dm", "./code/./a//b.dm", "./code/"] ∧
      List.Forall₂ (fun file found =>
          FoundFrom "./code//./dmlex.json/".toList file.toList found.toList)
        ["/lib.dm", "./a//b.dm", ""] ["/lib.dm", "./code/./a//b.dm", "./code/"] ∧
      List.Forall₂ (fun found found' => Path.way found.toList = Path.way found'.toList ∧
          Path.isAbsolute found.toList = Path.isAbsolute found'.toList)
        ["/lib.dm", "./code/./a//b.dm", "./code/"] ["/lib.dm", "code/./a//b.dm", "code/"] ∧
      Path.EndsBelowRoot "dmlex.json".toList ∧
      (Project.mk .standard ["/lib.dm", "./a//b.dm", ""]).resolve "dmlex.json" =
        ["/lib.dm", "./a//b.dm", ""] := by
  have last : Path.EndsBelowRoot "./code//./dmlex.json/".toList :=
    ⟨.name "dmlex.json".toList, by decide, by decide⟩
  have last' : Path.EndsBelowRoot "dmlex.json".toList :=
    ⟨.name "dmlex.json".toList, by decide, by decide⟩
  have resolved : (Project.mk .standard ["/lib.dm", "./a//b.dm", ""]).resolve
      "./code//./dmlex.json/" = ["/lib.dm", "./code/./a//b.dm", "./code/"] := by decide +kernel
  have resolved' : (Project.mk .standard ["/lib.dm", "./a//b.dm", ""]).resolve
      "code/dmlex.json" = ["/lib.dm", "code/./a//b.dm", "code/"] := by decide +kernel
  have respelled : Relation.EqvGen Path.Respelled "./code//./dmlex.json/".toList
      "code/dmlex.json".toList := by
    have dotted : Path.Respelled "code/dmlex.json".toList "./code/dmlex.json".toList :=
      .firstDot (by decide) (by decide)
    have doubled : Path.Respelled "./code/dmlex.json".toList "./code//dmlex.json".toList :=
      .slash "./code".toList "dmlex.json".toList
    have inner : Path.Respelled "./code//dmlex.json".toList "./code//./dmlex.json".toList :=
      .dot "./code/".toList "dmlex.json".toList
    have ended : Path.Respelled "./code//./dmlex.json".toList "./code//./dmlex.json/".toList :=
      .lastSlash (by decide)
    exact .symm _ _ (.trans _ _ _ (.rel _ _ dotted) (.trans _ _ _ (.rel _ _ doubled)
      (.trans _ _ _ (.rel _ _ inner) (.rel _ _ ended))))
  obtain ⟨found, same, -⟩ :=
    @resolve_relative ⟨.standard, ["/lib.dm", "./a//b.dm", ""]⟩ _ last
  obtain ⟨-, -, bare⟩ :=
    @resolve_relative ⟨.standard, ["/lib.dm", "./a//b.dm", ""]⟩ _ last'
  have pairs := same "code/dmlex.json" respelled
  rw [resolved] at found pairs
  rw [resolved'] at pairs
  exact ⟨last, resolved, found, pairs, last', bare (by decide)⟩

end Project

end DreamLexer
