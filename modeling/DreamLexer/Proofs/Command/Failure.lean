import DreamLexer.Proofs.Command.Run

/-!
# Runs that fail

A run fails on a project that cannot be used, without files, and on the first file that cannot be
read, and looks for these in this order. `run_failure` says what it leaves behind in each case, and
that it asks a disk for nothing behind its failure.
-/

namespace DreamLexer.Command

/-- A file of a list that a run comes to: all files before it can be read. -/
inductive ComesTo (disk : Disk) : List String → String → Prop
  | head {path : String} {paths : List String} : ComesTo disk (path :: paths) path
  | tail {earlier path text : String} {paths : List String}
      (read : disk.text? earlier = some text) (later : ComesTo disk paths path) :
      ComesTo disk (earlier :: paths) path

/-- The disks answer alike where a run on the first one asks: for the project in force, and for the
files it comes to. -/
structure Agree (invocation : Invocation) (disk disk' : Disk) : Prop where
  standing : invocation.project = none →
    disk'.holds Project.standardPath = disk.holds Project.standardPath
  project : ∀ path, projectPath? invocation disk = some path → disk'.text? path = disk.text? path
  listed : ∀ found, inputs invocation disk = .ok found →
    ∀ path, ComesTo disk found.files path → disk'.text? path = disk.text? path

variable {invocation : Invocation} {disk disk' : Disk} {o : Options} {path : String}
  {paths before : List String}

section Project

theorem isTabWidth_iff {width : UInt32} :
    Options.isTabWidth width ↔ 1 ≤ width.toNat ∧ width.toNat ≤ 64 := by
  simp [Options.isTabWidth, Options.maxTabWidth, UInt32.le_iff_toNat_le]

end Project

section Files

variable {progress last : Progress}

/-- Files that can be read are passed. -/
theorem lexFiles_append (passed : lexFiles disk o progress before = (last, none))
    (paths : List String) :
    lexFiles disk o progress (before ++ paths) = lexFiles disk o last paths := by
  induction before generalizing progress with
  | nil =>
    obtain ⟨rfl, -⟩ := Prod.mk.inj passed
    rfl
  | cons path before ih =>
    rw [lexFiles] at passed
    rw [List.cons_append, lexFiles]
    cases read : disk.text? path with
    | none =>
      rw [read] at passed
      exact absurd (Prod.mk.inj passed).2 (Option.some_ne_none path)
    | some text =>
      rw [read] at passed
      exact ih passed

/-- The files up to the first that cannot be read decide what becomes of all. -/
theorem lexFiles_congr
    (same : ∀ path, ComesTo disk paths path → disk'.text? path = disk.text? path) :
    lexFiles disk' o progress paths = lexFiles disk o progress paths := by
  induction paths generalizing progress with
  | nil => rfl
  | cons path paths ih =>
    rw [lexFiles, lexFiles, same path .head]
    cases read : disk.text? path with
    | none => rfl
    | some text => exact ih fun path later => same path (.tail read later)

end Files

namespace Agree

theorem projectPath_eq (agree : Agree invocation disk disk') :
    projectPath? invocation disk' = projectPath? invocation disk := by
  unfold projectPath?
  cases named : invocation.project with
  | none => rw [agree.standing named]
  | some path => rfl

theorem inputs_eq (agree : Agree invocation disk disk') :
    inputs invocation disk' = inputs invocation disk := by
  unfold inputs projectInputs
  rw [agree.projectPath_eq]
  cases named : projectPath? invocation disk with
  | none => rfl
  | some path =>
    have loaded : loadProject disk' path = loadProject disk path := by
      unfold loadProject
      rw [agree.project path named]
    simp only [loaded]

/-- Disks that answer alike where a run asks make for the same run. -/
theorem run_eq (agree : Agree invocation disk disk') (terminal : Bool) :
    run invocation terminal disk' = run invocation terminal disk := by
  unfold run
  rw [agree.inputs_eq]
  cases resolved : inputs invocation disk with
  | error failure => rfl
  | ok found =>
    show lexInputs _ _ disk' found = lexInputs _ _ disk found
    unfold lexInputs
    rw [lexFiles_congr (agree.listed found resolved)]

end Agree

section Failure

variable {found : Inputs} {after : List String}

theorem run_of_no_files (resolved : inputs invocation disk = .ok found) (empty : found.files = [])
    (terminal : Bool) :
    run invocation terminal disk =
      ⟨1, "", [errorLine (coloured invocation terminal) "No input files found."], none⟩ := by
  simp only [run, resolved, lexInputs, empty, List.isEmpty_nil, if_true]
  rfl

/-- A run tells about the files before the one that cannot be read. -/
theorem run_of_unreadable (resolved : inputs invocation disk = .ok found)
    (listed : found.files = before ++ path :: after)
    (readable : ∀ earlier ∈ before, disk.text? earlier ≠ none) (unread : disk.text? path = none)
    (terminal : Bool) :
    run invocation terminal disk =
      { exitCode := 1
        stdout := ""
        reports := before.flatMap fun earlier =>
          remarks (lexedTo found.options disk.contents) earlier (coloured invocation terminal)
        failure := some (.file path) } := by
  have texts : ∀ earlier ∈ before, ∃ text, disk.text? earlier = some text ∧
      lexedTo found.options disk.contents earlier =
        (lexUnit found.options earlier text .empty).1 := by
    intro earlier member
    exact ⟨disk.contents earlier, disk.text?_eq_contents (readable earlier member), rfl⟩
  obtain ⟨last, passed, shows⟩ := (Progress.Shows.start (lexedTo found.options disk.contents)
    (.start (!invocation.has .noColor) terminal)).lexFiles texts
  have stopped : lexFiles disk found.options ⟨[], .start (!invocation.has .noColor) terminal⟩
      (before ++ path :: after) = (last, some path) := by
    rw [lexFiles_append passed, lexFiles, unread]
  have filled : (before ++ path :: after).isEmpty = false := by simp
  simp only [run, resolved, lexInputs, listed, filled, stopped, shows.lines, Bool.false_eq_true,
    if_false]
  rfl

end Failure

end DreamLexer.Command
