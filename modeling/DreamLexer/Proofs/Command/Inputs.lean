import DreamLexer.Proofs.Command.Arguments
import DreamLexer.Proofs.Command.Failure
import DreamLexer.Proofs.Json.Record

/-!
# What a run lexes, and how

Three sources say it: the defaults, the project in force, and the arguments. `StartsFrom` is what
the first two come to, and `Overrides` what the arguments make of it. These are the files that a run
lexes and the options it lexes them with (`Lexes`), for any arguments that are accepted
(`inputs_resolved`), and the tab width is then one that the lexer takes as it is, since a project and
the arguments are both held to its range.
-/

namespace DreamLexer

open Json (LeavesOut)

variable {text path : String} {project : Project}

/-- A width in range is not moved. -/
theorem Options.effectiveTabWidth_eq {o : Options} (low : 1 ≤ o.tabWidth.toNat)
    (high : o.tabWidth.toNat ≤ 64) : o.effectiveTabWidth = o.tabWidth := by
  have small : ¬ o.tabWidth < 1 := by
    rw [UInt32.not_lt, UInt32.le_iff_toNat_le]
    exact low
  have large : ¬ maxTabWidth < o.tabWidth := by
    rw [UInt32.not_lt, UInt32.le_iff_toNat_le]
    exact high
  rw [effectiveTabWidth, if_neg small, if_neg large]

namespace Project

/-- A field spares what putting its value into the record does not change. -/
theorem field_spares {σ α β : Type} {part : σ → β} {key : String} {read : Json.Reader α}
    {put : σ → α → σ} (advances : read.Advances)
    (kept : ∀ record value, part (put record value) = part record) :
    (field key read put).Spares part := by
  intro record items record' behind stored
  simp only [field, bind, Except.bind] at stored
  split at stored
  next => cases stored
  next result taken =>
    obtain ⟨rfl, rfl⟩ := Prod.mk.inj (Except.ok.inj stored)
    exact ⟨kept record result.1, advances taken⟩

theorem readText_of_parse (parsed : parse text = .ok project) :
    Json.readText (Json.readRecord fields standard) text.toList = .ok project ∧
      Options.isTabWidth project.options.tabWidth := by
  unfold parse at parsed
  split at parsed
  next => cases parsed
  next read =>
    split at parsed
    next inside =>
      obtain rfl := Except.ok.inj parsed
      exact ⟨read, inside⟩
    next => cases parsed

/-- Only the field of the options writes them. -/
theorem fields_spare_options : ∀ entry ∈ fields, entry.key ≠ "lexerOptions" →
    entry.Spares Project.options := by
  intro entry member other
  rw [fields, List.mem_cons, List.mem_singleton] at member
  rcases member with rfl | rfl
  · exact absurd rfl other
  · exact field_spares Json.readStringArray_advances fun _ _ => rfl

/-- A project whose options are left out has the standard ones. -/
theorem options_of_leavesOut (parsed : parse text = .ok project)
    (out : LeavesOut "lexerOptions" (Json.items text.toList)) :
    project.options = .standard := by
  have read := (readText_of_parse parsed).1
  simp only [Json.readText, bind, Except.bind] at read
  split at read
  next => cases read
  next result taken =>
    split at read
    next =>
      obtain rfl := Except.ok.inj read
      exact Json.readRecord_of_leavesOut fields_spare_options out taken
    next => cases read

end Project

namespace Command

/-- The project file in force: the one that is given, else the standard one if there is something
under its name. -/
inductive InForce (given : List Given) (disk : Disk) : String → Prop
  | named {path : String} (said : .setting .project path ∈ given) : InForce given disk path
  | standard (unsaid : ∀ path, .setting .project path ∉ given)
      (held : disk.holds Project.standardPath = true) : InForce given disk Project.standardPath

/-- The project that the file under a path holds. -/
def Loads (disk : Disk) (path : String) (project : Project) : Prop :=
  ∃ text, disk.text? path = some text ∧ Project.parse text = .ok project

/-- What a run would lex, and how, if the arguments said nothing about it: what the project in force
says, or nothing in the standard way. -/
inductive StartsFrom (given : List Given) (disk : Disk) : Inputs → Prop
  | project {path : String} {project : Project} (force : InForce given disk path)
      (loaded : Loads disk path project) :
      StartsFrom given disk ⟨project.resolve path, project.options⟩
  | nothing (forceless : ∀ path, ¬ InForce given disk path) : StartsFrom given disk ⟨[], .standard⟩

/-- What the arguments make of the files and options to start from. -/
structure Overrides (given : List Given) (base found : Inputs) : Prop where
  files_of_given : given.filterMap Invocation.file? ≠ [] →
    found.files = given.filterMap Invocation.file?
  files_of_none : given.filterMap Invocation.file? = [] → found.files = base.files
  emitComments : found.options.emitComments = true ↔
    base.options.emitComments = true ∧ .flag .noComments ∉ given
  collapseNewlines : found.options.collapseNewlines = true ↔
    base.options.collapseNewlines = true ∨ .flag .collapseNewlines ∈ given
  keywords : found.options.keywords = true ↔
    base.options.keywords = true ∨ .flag .keywords ∈ given
  tabWidth_of_given : ∀ value, .setting .tabWidth value ∈ given →
    WritesWidth value found.options.tabWidth
  tabWidth_of_none : (∀ value, .setting .tabWidth value ∉ given) →
    found.options.tabWidth = base.options.tabWidth
  closeBlocksAtEof : found.options.closeBlocksAtEof = base.options.closeBlocksAtEof

/-- What a run leaves behind that lexes these files, in their order, with these options. Without a
file it says so. Where one cannot be read it stops, and remarks on the files before that one. Else it
shows the units of the files that lex, remarks on the others, and counts the errors. -/
inductive Lexes (invocation : Invocation) (terminal : Bool) (disk : Disk) (inputs : Inputs) :
    Outcome → Prop
  | nothing (unlisted : inputs.files = []) :
      Lexes invocation terminal disk inputs
        { exitCode := 1
          stdout := ""
          reports := [errorLine (coloured invocation terminal) "No input files found."]
          failure := none }
  | stopped {before after : List String} {path : String}
      (listed : inputs.files = before ++ path :: after)
      (readable : ∀ earlier ∈ before, disk.text? earlier ≠ none)
      (unread : disk.text? path = none) :
      Lexes invocation terminal disk inputs
        { exitCode := 1
          stdout := ""
          reports := before.flatMap fun earlier =>
            remarks (lexedTo inputs.options disk.contents) earlier (coloured invocation terminal)
          failure := some (.file path) }
  | all (listed : inputs.files ≠ []) (readable : ∀ path ∈ inputs.files, disk.text? path ≠ none) :
      Lexes invocation terminal disk inputs
        { exitCode :=
            if 0 < inputs.files.countP (fails (lexedTo inputs.options disk.contents)) then 2 else 0
          stdout := listing invocation.format (invocation.has .pretty)
            (inputs.files.filterMap (unit? (lexedTo inputs.options disk.contents)))
          reports :=
            (inputs.files.flatMap fun path =>
              remarks (lexedTo inputs.options disk.contents) path (coloured invocation terminal)) ++
            closingLines (coloured invocation terminal)
              (inputs.files.countP (fails (lexedTo inputs.options disk.contents)))
          failure := none }

variable {arguments : List String} {given : List Given} {invocation : Invocation} {disk : Disk}
  {base found : Inputs} {path : String} {project : Project} {flag : Flag}

section Project

theorem loadProject_eq_ok_iff : loadProject disk path = .ok project ↔ Loads disk path project := by
  unfold loadProject Loads
  cases disk.text? path with
  | none => simp
  | some text => cases parsed : Project.parse text <;> simp [parsed]

/-- The path where a run looks for its project is that of the project in force. -/
theorem Makes.projectPath?_eq_some_iff (makes : Makes given invocation) :
    projectPath? invocation disk = some path ↔ InForce given disk path := by
  have chosen := makes.project
  unfold projectPath?
  generalize invocation.project = choice at chosen ⊢
  cases chosen with
  | said member read =>
    obtain rfl := Option.some.inj read
    constructor
    · rintro ⟨⟩
      exact .named member
    · intro force
      cases force with
      | named said => exact congrArg some (makes.value_unique said member)
      | standard unsaid held => exact absurd member (unsaid _)
  | unsaid absent =>
    constructor
    · intro standing
      obtain ⟨held, same⟩ := Option.ite_none_right_eq_some.1 standing
      rw [← Option.some.inj same]
      exact .standard absent held
    · intro force
      cases force with
      | named said => exact absurd said (absent path)
      | standard unsaid held => exact if_pos held

/-- A run starts from the files and options of the project in force, if that loads. -/
theorem Makes.exists_startsFrom (makes : Makes given invocation)
    (loads : ∀ path, projectPath? invocation disk = some path →
      ∃ project, Loads disk path project) :
    ∃ base, projectInputs invocation disk = .ok base ∧ StartsFrom given disk base := by
  unfold projectInputs
  cases named : projectPath? invocation disk with
  | none =>
    refine ⟨_, rfl, .nothing fun path force => ?_⟩
    rw [makes.projectPath?_eq_some_iff.2 force] at named
    cases named
  | some path =>
    obtain ⟨project, loaded⟩ := loads path named
    simp only [loadProject_eq_ok_iff.2 loaded]
    exact ⟨_, rfl, .project (makes.projectPath?_eq_some_iff.1 named) loaded⟩

end Project

section Override

theorem Makes.has_iff (makes : Makes given invocation) :
    invocation.has flag = true ↔ .flag flag ∈ given := by
  rw [Invocation.has, List.contains_iff_mem, makes.flags, mem_flags]

/-- The arguments override what a run starts from. -/
theorem Makes.overrides (makes : Makes given invocation) (base : Inputs) :
    Overrides given base
      ⟨if invocation.files.isEmpty then base.files else invocation.files,
        invocation.override base.options⟩ where
  files_of_given some_given := by
    rw [makes.files, if_neg (mt List.isEmpty_iff.1 some_given)]
  files_of_none none_given := by
    rw [makes.files, if_pos (List.isEmpty_iff.2 none_given)]
  emitComments := by
    rw [Invocation.override, Bool.and_eq_true, Bool.not_eq_true', ← Bool.not_eq_true,
      makes.has_iff]
  collapseNewlines := by
    rw [Invocation.override, Bool.or_eq_true, makes.has_iff]
  keywords := by
    rw [Invocation.override, Bool.or_eq_true, makes.has_iff]
  tabWidth_of_given value member := by
    obtain ⟨width, chosen, read⟩ := makes.choice_of_mem makes.tabWidth member
    rw [Invocation.override, chosen]
    exact tabWidth?_eq_some_iff.1 read
  tabWidth_of_none absent := by
    rw [Invocation.override, makes.tabWidth.eq_none absent]
    rfl
  closeBlocksAtEof := rfl

/-- What a run starts from has a tab width in range. -/
theorem StartsFrom.tabWidth_range (starts : StartsFrom given disk base) :
    1 ≤ base.options.tabWidth.toNat ∧ base.options.tabWidth.toNat ≤ 64 := by
  cases starts with
  | project force loaded =>
    obtain ⟨text, -, parsed⟩ := loaded
    exact isTabWidth_iff.1 (Project.readText_of_parse parsed).2
  | nothing => exact isTabWidth_iff.1 (by decide)

/-- The arguments cannot choose a width out of range either. -/
theorem Overrides.tabWidth_range (overrides : Overrides given base found)
    (starts : StartsFrom given disk base) :
    1 ≤ found.options.tabWidth.toNat ∧ found.options.tabWidth.toNat ≤ 64 := by
  by_cases said : ∃ value, .setting .tabWidth value ∈ given
  · obtain ⟨value, member⟩ := said
    obtain ⟨digits, -, -, -, -, range⟩ := overrides.tabWidth_of_given value member
    exact range
  · rw [overrides.tabWidth_of_none fun value member => said ⟨value, member⟩]
    exact starts.tabWidth_range

end Override

/-- A run lexes the files that are found, with the options that are found. -/
theorem run_lexes {invocation : Invocation} (resolved : inputs invocation disk = .ok found)
    (terminal : Bool) :
    Lexes invocation terminal disk found (run invocation terminal disk) := by
  cases missing : found.files.find? fun path => (disk.text? path).isNone with
  | some path =>
    obtain ⟨unread, before, after, listed, earlier⟩ := List.find?_eq_some_iff_append.1 missing
    have readable : ∀ path ∈ before, disk.text? path ≠ none := by
      simpa [Option.isSome_iff_ne_none] using earlier
    rw [Option.isNone_iff_eq_none] at unread
    rw [run_of_unreadable resolved listed readable unread]
    exact .stopped listed readable unread
  | none =>
    by_cases empty : found.files = []
    · rw [run_of_no_files resolved empty]
      exact .nothing empty
    · have readable : ∀ path ∈ found.files, disk.text? path ≠ none := by
        simpa using List.find?_eq_none.1 missing
      rw [run_of_texts resolved empty
        (fun path member => disk.text?_eq_contents (readable path member)) terminal]
      exact .all empty readable

/-- A project in force whose options are left out leaves the standard ones. -/
theorem Makes.options_of_leavesOut (makes : Makes given invocation)
    (starts : StartsFrom given disk base) {text : String} (force : InForce given disk path)
    (read : disk.text? path = some text)
    (out : LeavesOut "lexerOptions" (Json.items text.toList)) : base.options = .standard := by
  cases starts with
  | project force' loaded =>
    have same := (makes.projectPath?_eq_some_iff.2 force).symm.trans
      (makes.projectPath?_eq_some_iff.2 force')
    obtain ⟨text', read', parsed⟩ := loaded
    rw [← Option.some.inj same, read] at read'
    obtain rfl := Option.some.inj read'
    exact Project.options_of_leavesOut parsed out
  | nothing forceless => exact absurd force (forceless path)

/-- A run whose project, if there is one in force, can be loaded lexes the files of the arguments,
else those of the project, else none. The project's options are those it says, or the standard ones
where it says nothing, and so they are without a project. The arguments change them in the direction
of each flag, and replace the tab width, which in the end is one that the lexer takes as it is. What
the run leaves behind is what these files and options make of it. -/
theorem inputs_resolved (accepted : Invocation.parse? arguments = some invocation)
    (loads : ∀ path, projectPath? invocation disk = some path →
      ∃ project, Loads disk path project) :
    ∃ given base found,
      (∀ said, Says arguments said ↔ said = given) ∧
      (∀ path, projectPath? invocation disk = some path ↔ InForce given disk path) ∧
      StartsFrom given disk base ∧
      (∀ path text, InForce given disk path → disk.text? path = some text →
        LeavesOut "lexerOptions" (Json.items text.toList) → base.options = .standard) ∧
      inputs invocation disk = .ok found ∧
      Overrides given base found ∧
      (1 ≤ found.options.tabWidth.toNat ∧ found.options.tabWidth.toNat ≤ 64 ∧
        found.options.effectiveTabWidth = found.options.tabWidth) ∧
      ∀ terminal, Lexes invocation terminal disk found (run invocation terminal disk) := by
  obtain ⟨given, said, makes⟩ := parse?_eq_some_iff.1 accepted
  obtain ⟨base, stands, starts⟩ := makes.exists_startsFrom loads
  have overrides := makes.overrides base
  have resolved : inputs invocation disk = .ok
      ⟨if invocation.files.isEmpty then base.files else invocation.files,
        invocation.override base.options⟩ := by
    simp only [inputs, stands]
  obtain ⟨low, high⟩ := overrides.tabWidth_range starts
  refine ⟨given, base, _, ?_, fun path => makes.projectPath?_eq_some_iff, starts, ?_, resolved,
    overrides, ⟨low, high, Options.effectiveTabWidth_eq low high⟩, run_lexes resolved⟩
  · intro other
    constructor
    · exact said.unique
    · rintro rfl
      exact said
  · intro path text force read out
    exact makes.options_of_leavesOut starts force read out

/-- A project that is named hides the standard one, its files are found from its directory, and the
arguments change two of its options: the tab is four columns wide, and the comment is no token. -/
theorem inputs_resolved_of_named_project :
    ∃ disk invocation found,
      disk.text? "conf/p.json" = some ("\x7b\"files\": [\"a.dm\", \"/b.dm\"], " ++
        "\"lexerOptions\": \x7b\"keywords\": true, \"tabWidth\": 2\x7d\x7d") ∧
      disk.text? "conf/a.dm" = some "if\tx" ∧ disk.text? "/b.dm" = some "y// z" ∧
      disk.holds Project.standardPath = true ∧
      Invocation.parse? ["-vp", "conf/p.json", "--tab-width=+04", "--no-comments"] =
        some invocation ∧
      inputs invocation disk = .ok found ∧
      found.files = ["conf/a.dm", "/b.dm"] ∧
      found.options = ⟨false, false, true, 4, true⟩ ∧
      found.options.effectiveTabWidth = 4 ∧
      run invocation false disk =
        { exitCode := 0
          stdout := "conf/a.dm:1:1\tKEYWORD_IF(\x22if\x22)\nconf/a.dm:1:7\tIDENT(\x22x\x22)\n" ++
            "/b.dm:1:1\tIDENT(\x22y\x22)\n"
          reports := []
          failure := none } := by
  obtain ⟨disk, disk_eq⟩ : ∃ disk, disk = Disk.ofEntries
      [("dmlex.json", none), ("conf/p.json", some ("\x7b\"files\": [\"a.dm\", \"/b.dm\"], " ++
        "\"lexerOptions\": \x7b\"keywords\": true, \"tabWidth\": 2\x7d\x7d")),
        ("conf/a.dm", some "if\tx"), ("/b.dm", some "y// z")] := ⟨_, rfl⟩
  have accepted : Invocation.parse? ["-vp", "conf/p.json", "--tab-width=+04", "--no-comments"] =
      some ⟨[], [.verbose, .noComments], some "conf/p.json", .text, some 4⟩ := by decide +kernel
  have usable : (loadProject disk "conf/p.json").toOption.isSome = true := by
    rw [disk_eq]
    decide +kernel
  have loads : ∀ path, projectPath? ⟨[], [.verbose, .noComments], some "conf/p.json", .text, some 4⟩
      disk = some path → ∃ project, Loads disk path project := by
    rintro path ⟨⟩
    cases loaded : loadProject disk "conf/p.json" with
    | ok project => exact ⟨project, loadProject_eq_ok_iff.1 loaded⟩
    | error failure =>
      rw [loaded] at usable
      cases usable
  obtain ⟨given, base, found, -, -, -, -, resolved, -, ⟨-, -, kept⟩, lexes⟩ :=
    inputs_resolved accepted loads
  have listed : (inputs ⟨[], [.verbose, .noComments], some "conf/p.json", .text, some 4⟩
      disk).toOption = some ⟨["conf/a.dm", "/b.dm"], ⟨false, false, true, 4, true⟩⟩ := by
    rw [disk_eq]
    decide +kernel
  rw [resolved] at listed
  obtain rfl := Option.some.inj listed
  have first : disk.text? "conf/a.dm" = some "if\tx" := by
    rw [disk_eq]
    decide
  have second : disk.text? "/b.dm" = some "y// z" := by
    rw [disk_eq]
    decide
  refine ⟨disk, _, _, ?_, first, second, ?_, accepted, resolved, rfl, rfl, kept, ?_⟩
  · rw [disk_eq]
    decide +kernel
  · rw [disk_eq]
    decide +kernel
  · have left := lexes false
    generalize run _ false disk = outcome at left ⊢
    cases left with
    | nothing unlisted => cases unlisted
    | @stopped before after path split readable unread =>
      have member : path ∈ before ++ path :: after := List.mem_append_right _ List.mem_cons_self
      rw [← split] at member
      obtain rfl | rfl : path = "conf/a.dm" ∨ path = "/b.dm" := by simpa using member
      · rw [first] at unread
        cases unread
      · rw [second] at unread
        cases unread
    | all listed readable =>
      rw [disk_eq]
      decide +kernel

end Command

end DreamLexer
