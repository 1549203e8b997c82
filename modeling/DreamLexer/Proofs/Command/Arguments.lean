import DreamLexer.Command.Invocation
import DreamLexer.Proofs.Lexeme.Grammar
import DreamLexer.Proofs.Token.Table

/-!
# What the arguments say

`Says` is the grammar of the command line: it relates arguments to the files, flags and settings
they give, with a constructor for each way of writing them. The reader is that grammar
(`readArguments?_eq_some_iff`). An invocation is made of arguments that repeat nothing and whose
values can be read (`parse?_eq_some_iff`).
-/

namespace DreamLexer.Command

open Lexeme (NextIs nextIs_nil nextIs_cons takeWhile_of_nextIs dropWhile_of_nextIs)

/-- The long name of a flag. -/
def Flag.name : Flag → List Char
  | .noComments => "no-comments".toList
  | .collapseNewlines => "collapse-newlines".toList
  | .keywords => "keywords".toList
  | .pretty => "pretty".toList
  | .noColor => "no-color".toList
  | .verbose => "verbose".toList

/-- The long name of a setting. -/
def Setting.name : Setting → List Char
  | .project => "project".toList
  | .format => "format".toList
  | .tabWidth => "tab-width".toList

/-- A long argument behind its dashes: a flag, or a setting with its value behind an equals sign or
in the next argument. -/
inductive Long : List Char → Word → Prop
  | flag (flag : Flag) : Long flag.name ⟨[.flag flag], none⟩
  | apart (setting : Setting) : Long setting.name ⟨[], some setting⟩
  | joined (setting : Setting) (value : List Char) :
      Long (setting.name ++ '=' :: value) ⟨[.setting setting (String.ofList value)], none⟩

/-- Letters behind a single dash: any number of flags, and perhaps the project with its path behind
it, behind an equals sign, or in the next argument. -/
inductive Letters : List Char → Word → Prop
  | nil : Letters [] ⟨[], none⟩
  | verbose {letters : List Char} {given : List Given} {pending : Option Setting}
      (behind : Letters letters ⟨given, pending⟩) :
      Letters ('v' :: letters) ⟨.flag .verbose :: given, pending⟩
  | apart : Letters ['p'] ⟨[], some .project⟩
  | joined {c : Char} (other : c ≠ '=') (path : List Char) :
      Letters ('p' :: c :: path) ⟨[.setting .project (String.ofList (c :: path))], none⟩
  | equals (path : List Char) :
      Letters ('p' :: '=' :: path) ⟨[.setting .project (String.ofList path)], none⟩

/-- An argument that a dash does not make an option: one without a dash in front, or a mere dash. -/
def IsPlain (argument : String) : Prop :=
  ∀ letters, argument.toList = '-' :: letters → letters = []

/-- An argument that is not two dashes, and what it says. -/
inductive Spells : String → Word → Prop
  | file {argument : String} (plain : IsPlain argument) : Spells argument ⟨[.file argument], none⟩
  | long {argument : String} {text : List Char} {word : Word}
      (written : argument.toList = '-' :: '-' :: text) (spelled : Long text word) :
      Spells argument word
  | letters {argument : String} {letters : List Char} {word : Word}
      (written : argument.toList = '-' :: letters) (filled : letters ≠ [])
      (spelled : Letters letters word) : Spells argument word

/-- Arguments, and what they say one after the other. -/
inductive Says : List String → List Given → Prop
  | nil : Says [] []
  | files (paths : List String) : Says ("--" :: paths) (paths.map .file)
  | word {argument : String} {arguments : List String} {given later : List Given}
      (spelled : Spells argument ⟨given, none⟩) (others : Says arguments later) :
      Says (argument :: arguments) (given ++ later)
  | valued {argument value : String} {arguments : List String} {given later : List Given}
      {setting : Setting} (spelled : Spells argument ⟨given, some setting⟩) (plain : IsPlain value)
      (others : Says arguments later) :
      Says (argument :: value :: arguments) (given ++ .setting setting value :: later)

/-- A value that writes a tab width: decimal digits, perhaps behind a plus, for a number from 1
to 64. -/
def WritesWidth (value : String) (width : UInt32) : Prop :=
  ∃ digits, (value.toList = digits ∨ value.toList = '+' :: digits) ∧ digits ≠ [] ∧
    (∀ c ∈ digits, c.isDigit) ∧ Text.decimal digits = width.toNat ∧
      1 ≤ width.toNat ∧ width.toNat ≤ 64

/-- What becomes of a setting: the value given is read, and there may be none. -/
inductive Chooses {α : Type} (given : List Given) (setting : Setting) (read? : String → Option α) :
    Option α → Prop
  | said {value : String} {a : α} (member : .setting setting value ∈ given)
      (read : read? value = some a) : Chooses given setting read? (some a)
  | unsaid (absent : ∀ value, .setting setting value ∉ given) : Chooses given setting read? none

/-- The invocation that is made of what the arguments say. -/
structure Makes (given : List Given) (invocation : Invocation) : Prop where
  flags_once : (given.filterMap Invocation.flag?).Nodup
  settings_once : ((given.filterMap Invocation.setting?).map Prod.fst).Nodup
  files : invocation.files = given.filterMap Invocation.file?
  flags : invocation.flags = given.filterMap Invocation.flag?
  project : Chooses given .project some invocation.project
  format : ∃ choice, Chooses given .format Format.ofName? choice ∧
    invocation.format = choice.getD .text
  tabWidth : Chooses given .tabWidth tabWidth? invocation.tabWidth

variable {argument : String} {arguments : List String} {given : List Given} {word : Word}
  {text letters : List Char} {flag : Flag} {setting : Setting}

section Long

theorem lookup_longFlags : longFlags.lookup text = some flag ↔ text = flag.name := by
  rw [lookup_eq_some_iff_mem (by decide)]
  constructor
  · intro member
    have named : ∀ entry ∈ longFlags, entry.1 = entry.2.name := by decide
    exact named _ member
  · rintro rfl
    cases flag <;> decide

theorem lookup_longSettings : longSettings.lookup text = some setting ↔ text = setting.name := by
  rw [lookup_eq_some_iff_mem (by decide)]
  constructor
  · intro member
    have named : ∀ entry ∈ longSettings, entry.1 = entry.2.name := by decide
    exact named _ member
  · rintro rfl
    cases setting <;> decide

theorem lookup_longFlags_setting (setting : Setting) :
    longFlags.lookup setting.name = none := by
  cases setting <;> decide

theorem Flag.name_bare (flag : Flag) : flag.name.all (· != '=') = true := by
  cases flag <;> decide

theorem Setting.name_bare (setting : Setting) : setting.name.all (· != '=') = true := by
  cases setting <;> decide

/-- What stands in front of the first equals sign, and what stands behind. -/
theorem parts_of_bare {name rest : List Char} (bare : name.all (· != '=') = true)
    (next : NextIs (fun c => ¬ (c != '=') = true) rest) :
    (name ++ rest).takeWhile (· != '=') = name ∧ (name ++ rest).dropWhile (· != '=') = rest :=
  ⟨takeWhile_of_nextIs (List.all_eq_true.1 bare) next,
    dropWhile_of_nextIs (List.all_eq_true.1 bare) next⟩

/-- The reader of long arguments is their grammar. -/
theorem readLong?_eq_some_iff : readLong? text = some word ↔ Long text word := by
  constructor
  · intro read
    have parts : text.takeWhile (· != '=') ++ text.dropWhile (· != '=') = text :=
      List.takeWhile_append_dropWhile
    simp only [readLong?] at read
    split at read
    next flag named ended =>
      rw [ended, List.append_nil, lookup_longFlags.1 named] at parts
      rw [← parts, ← Option.some.inj read]
      exact .flag flag
    next => cases read
    next setting flagless named ended =>
      rw [ended, List.append_nil, lookup_longSettings.1 named] at parts
      rw [← parts, ← Option.some.inj read]
      exact .apart setting
    next setting c value flagless named behind =>
      -- the name ends where it does because of an equals sign
      have sign : c = '=' := by
        have stop := List.head?_dropWhile_not (· != '=') text
        simpa [behind] using stop
      rw [behind, lookup_longSettings.1 named, sign] at parts
      rw [← parts, ← Option.some.inj read]
      exact .joined setting value
    next => cases read
  · intro spelled
    unfold readLong?
    cases spelled with
    | flag flag =>
      obtain ⟨name, behind⟩ := parts_of_bare flag.name_bare nextIs_nil
      rw [List.append_nil] at name behind
      simp only [name, behind, lookup_longFlags.2 rfl]
    | apart setting =>
      obtain ⟨name, behind⟩ := parts_of_bare setting.name_bare nextIs_nil
      rw [List.append_nil] at name behind
      simp only [name, behind, lookup_longFlags_setting, lookup_longSettings.2 rfl]
    | joined setting value =>
      have sign : NextIs (fun c => ¬ (c != '=') = true) ('=' :: value) :=
        nextIs_cons.2 (by decide)
      obtain ⟨name, behind⟩ := parts_of_bare setting.name_bare sign
      simp only [name, behind, lookup_longFlags_setting, lookup_longSettings.2 rfl]

end Long

/-- The reader of letters is their grammar. -/
theorem readLetters?_eq_some_iff : readLetters? letters = some word ↔ Letters letters word := by
  constructor
  · intro read
    induction letters generalizing word with
    | nil =>
      rw [← Option.some.inj read]
      exact .nil
    | cons letter behind ih =>
      unfold readLetters? at read
      split at read
      next verbose =>
        obtain ⟨later, others, rfl⟩ := Option.map_eq_some_iff.1 read
        rw [verbose]
        exact .verbose (ih others)
      next =>
        split at read
        next project =>
          rw [project]
          split at read
          next =>
            rw [← Option.some.inj read]
            exact .apart
          next c path =>
            rw [← Option.some.inj read]
            by_cases equals : c = '='
            · rw [equals, if_pos rfl]
              exact .equals path
            · rw [if_neg equals]
              exact .joined equals path
        next => cases read
  · intro spelled
    induction spelled with
    | nil => rfl
    | verbose behind ih =>
      unfold readLetters?
      rw [if_pos rfl, ih, Option.map_some]
    | apart => rfl
    | joined other path => simp [readLetters?, other]
    | equals path => rfl

section Word

theorem isPlain_iff : IsPlain argument ↔ isValue argument = true := by
  have dash : argument = "-" ↔ argument.toList = ['-'] := String.toList_inj.symm
  unfold IsPlain isValue
  rw [Bool.or_eq_true, bne_iff_ne, beq_iff_eq, dash]
  cases argument.toList with
  | nil => simp
  | cons c letters => by_cases dashed : c = '-' <;> simp [dashed]

/-- The reader of an argument is its grammar. -/
theorem readWord?_eq_some_iff : readWord? argument = some word ↔ Spells argument word := by
  constructor
  · intro read
    unfold readWord? at read
    split at read
    next text written => exact .long written (readLong?_eq_some_iff.1 read)
    next letter letters _ written =>
      exact .letters written (List.cons_ne_nil _ _) (readLetters?_eq_some_iff.1 read)
    next short undashed =>
      rw [← Option.some.inj read]
      refine .file fun letters written => ?_
      cases letters with
      | nil => rfl
      | cons letter letters => exact absurd written (undashed letter letters)
  · intro spelled
    unfold readWord?
    cases spelled with
    | file plain =>
      split
      next text written => exact absurd (plain _ written) (List.cons_ne_nil _ _)
      next letter letters _ written => exact absurd (plain _ written) (List.cons_ne_nil _ _)
      next => rfl
    | long written spelled =>
      simp only [written]
      exact readLong?_eq_some_iff.2 spelled
    | letters written filled spelled =>
      split
      next text dashed =>
        -- a dash is no letter
        obtain rfl := (List.cons.inj (written.symm.trans dashed)).2
        cases spelled
      next letter behind _ dashed =>
        obtain rfl := (List.cons.inj (written.symm.trans dashed)).2
        exact readLetters?_eq_some_iff.2 spelled
      next undashed =>
        obtain ⟨letter, behind, rfl⟩ := List.exists_cons_of_ne_nil filled
        exact absurd written (undashed letter behind)

/-- Two dashes are no argument of their own. -/
theorem Spells.ne_dashes (spelled : Spells argument word) : argument ≠ "--" := by
  rintro rfl
  have unread : readWord? "--" = none := by decide
  rw [readWord?_eq_some_iff.2 spelled] at unread
  cases unread

end Word

/-- The reader of the arguments is their grammar. -/
theorem readArguments?_eq_some_iff :
    readArguments? arguments = some given ↔ Says arguments given := by
  constructor
  · intro read
    fun_induction readArguments? arguments generalizing given with
    | case1 =>
      rw [← Option.some.inj read]
      exact .nil
    | case2 paths =>
      rw [← Option.some.inj read]
      exact .files paths
    | case3 => cases read
    | case4 argument arguments _ first spelled ih =>
      obtain ⟨later, others, rfl⟩ := Option.map_eq_some_iff.1 read
      exact .word (readWord?_eq_some_iff.1 spelled) (ih others)
    | case5 => cases read
    | case6 argument _ first setting spelled value arguments plain ih =>
      obtain ⟨later, others, rfl⟩ := Option.map_eq_some_iff.1 read
      exact .valued (readWord?_eq_some_iff.1 spelled) (isPlain_iff.2 plain) (ih others)
    | case7 => cases read
  · intro said
    induction said with
    | nil => rfl
    | files paths =>
      unfold readArguments?
      rw [if_pos rfl]
    | word spelled others ih =>
      unfold readArguments?
      rw [if_neg spelled.ne_dashes, readWord?_eq_some_iff.2 spelled, ih]
      rfl
    | valued spelled plain others ih =>
      unfold readArguments?
      rw [if_neg spelled.ne_dashes, readWord?_eq_some_iff.2 spelled]
      simp only [isPlain_iff.1 plain, if_true, ih, Option.map_some]

/-- Arguments say one thing only. -/
theorem Says.unique {other : List Given} (said : Says arguments given)
    (said' : Says arguments other) : other = given :=
  Option.some.inj
    ((readArguments?_eq_some_iff.2 said').symm.trans (readArguments?_eq_some_iff.2 said))

section Invocation

open Invocation

variable {invocation : Invocation} {value : String} {width : UInt32}

theorem mem_settings :
    (setting, value) ∈ given.filterMap setting? ↔ .setting setting value ∈ given := by
  rw [List.mem_filterMap]
  constructor
  · rintro ⟨entry, member, made⟩
    cases entry with
    | setting name text =>
      obtain ⟨rfl, rfl⟩ := Prod.mk.inj (Option.some.inj made)
      exact member
    | file path => cases made
    | flag flag => cases made
  · intro member
    exact ⟨_, member, rfl⟩

theorem mem_flags : flag ∈ given.filterMap flag? ↔ .flag flag ∈ given := by
  rw [List.mem_filterMap]
  constructor
  · rintro ⟨entry, member, set⟩
    cases entry with
    | flag other =>
      obtain rfl := Option.some.inj set
      exact member
    | file path => cases set
    | setting name text => cases set
  · intro member
    exact ⟨_, member, rfl⟩

/-- A setting that is given once is looked up. -/
theorem lookup_settings_eq_some_iff (once : ((given.filterMap setting?).map Prod.fst).Nodup) :
    (given.filterMap setting?).lookup setting = some value ↔ .setting setting value ∈ given :=
  (lookup_eq_some_iff_mem once).trans mem_settings

/-- The value of a setting is read if it is given. -/
theorem readValue_eq_some_iff {α : Type} {read? : String → Option α} {choice : Option α}
    (once : ((given.filterMap setting?).map Prod.fst).Nodup) :
    readValue read? ((given.filterMap setting?).lookup setting) = some choice ↔
      Chooses given setting read? choice := by
  constructor
  · intro read
    cases found : (given.filterMap setting?).lookup setting with
    | none =>
      rw [found] at read
      rw [← Option.some.inj read]
      refine .unsaid fun value member => ?_
      rw [(lookup_settings_eq_some_iff once).2 member] at found
      cases found
    | some value =>
      rw [found] at read
      obtain ⟨a, readable, rfl⟩ := Option.map_eq_some_iff.1 read
      exact .said ((lookup_settings_eq_some_iff once).1 found) readable
  · intro chosen
    cases chosen with
    | said member read =>
      rw [(lookup_settings_eq_some_iff once).2 member, readValue, read, Option.map_some]
    | unsaid absent =>
      cases found : (given.filterMap setting?).lookup setting with
      | none => rfl
      | some value => exact absurd ((lookup_settings_eq_some_iff once).1 found) (absent value)

theorem readValue_some (value : Option String) : readValue some value = some value := by
  cases value <;> rfl

/-- Digits are read to a width if their number is one from 1 to 64. -/
theorem widthOfDigits_eq_some_iff {digits : List Char} :
    (if digits.isEmpty || !digits.all Char.isDigit then none
      else if 1 ≤ Text.decimal digits ∧ Text.decimal digits ≤ Options.maxTabWidth.toNat then
        some (UInt32.ofNat (Text.decimal digits))
      else none) = some width ↔
      digits ≠ [] ∧ (∀ c ∈ digits, c.isDigit) ∧ Text.decimal digits = width.toNat ∧
        1 ≤ width.toNat ∧ width.toNat ≤ 64 := by
  have most : Options.maxTabWidth.toNat = 64 := rfl
  rw [most, Option.ite_none_left_eq_some, Option.ite_none_right_eq_some, Bool.or_eq_true, not_or,
    List.isEmpty_iff, Bool.not_eq_true', Bool.not_eq_false, List.all_eq_true]
  constructor
  · rintro ⟨⟨filled, decimal⟩, ⟨low, high⟩, read⟩
    have number : width.toNat = Text.decimal digits := by
      rw [← Option.some.inj read]
      exact UInt32.toNat_ofNat_of_lt (Nat.lt_of_le_of_lt high (by decide))
    exact ⟨filled, decimal, number.symm, number ▸ low, number ▸ high⟩
  · rintro ⟨filled, decimal, number, low, high⟩
    rw [number]
    exact ⟨⟨filled, decimal⟩, ⟨low, high⟩, congrArg some (UInt32.ofNat_toNat)⟩

/-- The reader of tab widths is their grammar. -/
theorem tabWidth?_eq_some_iff : tabWidth? value = some width ↔ WritesWidth value width := by
  unfold tabWidth? WritesWidth
  split
  next digits written =>
    rw [widthOfDigits_eq_some_iff]
    constructor
    · intro spelled
      exact ⟨digits, .inr written, spelled⟩
    · rintro ⟨other, written' | written', filled, decimal, number⟩
      · -- a plus is not a digit
        rw [← written', written] at decimal
        exact absurd (decimal '+' (List.mem_cons_self ..)) (by decide)
      · obtain rfl := (List.cons.inj (written'.symm.trans written)).2
        exact ⟨filled, decimal, number⟩
  next unsigned =>
    rw [widthOfDigits_eq_some_iff]
    constructor
    · intro spelled
      exact ⟨value.toList, .inl rfl, spelled⟩
    · rintro ⟨digits, written | written, spelled⟩
      · rw [written]
        exact spelled
      · exact absurd written (unsigned digits)

/-- A setting has one value. -/
theorem Makes.value_unique {other : String} (makes : Makes given invocation)
    (said : .setting setting value ∈ given) (said' : .setting setting other ∈ given) :
    other = value :=
  Option.some.inj (((lookup_settings_eq_some_iff makes.settings_once).2 said').symm.trans
    ((lookup_settings_eq_some_iff makes.settings_once).2 said))

/-- A setting that is given has a value that can be read. -/
theorem Makes.choice_of_mem {α : Type} {read? : String → Option α} {choice : Option α}
    (makes : Makes given invocation) (chosen : Chooses given setting read? choice)
    (member : .setting setting value ∈ given) : ∃ a, choice = some a ∧ read? value = some a := by
  cases chosen with
  | said member' read =>
    obtain rfl := makes.value_unique member member'
    exact ⟨_, rfl, read⟩
  | unsaid absent => exact absurd member (absent value)

/-- A setting that is not given has no value. -/
theorem Chooses.eq_none {α : Type} {read? : String → Option α} {choice : Option α}
    (chosen : Chooses given setting read? choice)
    (absent : ∀ value, .setting setting value ∉ given) : choice = none := by
  cases chosen with
  | said member read => exact absurd member (absent _)
  | unsaid => rfl

/-- An invocation is made of arguments that are in order, and of no others. -/
theorem parse?_eq_some_iff :
    Invocation.parse? arguments = some invocation ↔
      ∃ given, Says arguments given ∧ Makes given invocation := by
  simp only [parse?, Option.bind_eq_bind, Option.bind_eq_some_iff, Option.ite_none_right_eq_some]
  constructor
  · rintro ⟨given, read, format, formatted, tabWidth, widened, ⟨flags_once, settings_once⟩, ⟨⟩⟩
    refine ⟨given, readArguments?_eq_some_iff.1 read, ?_⟩
    exact
      { flags_once := flags_once
        settings_once := settings_once
        files := rfl
        flags := rfl
        project := (readValue_eq_some_iff settings_once).1 (readValue_some _)
        format := ⟨format, (readValue_eq_some_iff settings_once).1 formatted, rfl⟩
        tabWidth := (readValue_eq_some_iff settings_once).1 widened }
  · rintro ⟨given, said, makes⟩
    obtain ⟨format, formatted, format_eq⟩ := makes.format
    have named := (readValue_eq_some_iff makes.settings_once).2 makes.project
    rw [readValue_some] at named
    refine ⟨given, readArguments?_eq_some_iff.2 said, format,
      (readValue_eq_some_iff makes.settings_once).2 formatted, invocation.tabWidth,
      (readValue_eq_some_iff makes.settings_once).2 makes.tabWidth,
      ⟨makes.flags_once, makes.settings_once⟩, ?_⟩
    rw [Option.some.inj named, ← makes.files, ← makes.flags, ← format_eq]

end Invocation

end DreamLexer.Command
