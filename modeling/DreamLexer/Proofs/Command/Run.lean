import DreamLexer.Command.Run
import DreamLexer.Proofs.Scan.Piece
import DreamLexer.Proofs.Text.Template

/-!
# What a run shows

A run lexes its files one after the other. `Shows` says what it has to show for the files it is done
with: the units that lexed, the remarks about the others, and how many of these there are. One file
adds its part (`Shows.lexFile`), so the files add theirs in their order (`Shows.lexFiles`), and a run
whose files can all be read shows all of them: `run_of_readable`.
-/

namespace DreamLexer

/-- An error is told about once, and nothing else is told. -/
theorem lexUnit_told (o : Options) (unit text : String) (told : Diagnostics) :
    (lexUnit o unit text told).2 =
      match (lexUnit o unit text told).1 with
      | .ok _ => told
      | .error e => told.report e.text e.position := by
  rw [lexUnit_eq]
  cases ((Scanner.start unit text.toList).run o).ending <;> rfl

namespace Command

/-- Whether the lines of a run are coloured. -/
def coloured (invocation : Invocation) (terminal : Bool) : Bool :=
  !invocation.has .noColor && terminal

/-- The texts that can be read. -/
def Disk.contents (disk : Disk) (path : String) : String := (disk.text? path).getD ""

theorem Disk.text?_eq_contents {disk : Disk} {path : String} (read : disk.text? path ≠ none) :
    disk.text? path = some (disk.contents path) := by
  obtain ⟨text, found⟩ := Option.ne_none_iff_exists'.1 read
  rw [contents, found]
  rfl

/-- What files are lexed to, if these are their texts. -/
def lexedTo (o : Options) (contents : String → String) (path : String) :
    Except LexError (List Token) :=
  (lexUnit o path (contents path) .empty).1

section

variable (lexed : String → Except LexError (List Token)) (path : String)

/-- The unit of a file that lexes. -/
def unit? : Option UnitTokens :=
  match lexed path with
  | .ok tokens => some ⟨path, tokens⟩
  | .error _ => none

/-- Whether a file does not lex. -/
def fails : Bool :=
  match lexed path with
  | .ok _ => false
  | .error _ => true

/-- The lines about a file: its error, or that there are no tokens in it. -/
def remarks (coloured : Bool) : List String :=
  match lexed path with
  | .ok [] => [diagnosticLine coloured (.ofMessage .unitHasNoTokens [path] none)]
  | .ok _ => []
  | .error e => [lexErrorLine coloured e.text e.position]

/-- The lines about a file, without colours. -/
def plainRemarks : List String :=
  match lexed path with
  | .ok [] => ["warning DM2001: Unit '" ++ path ++ "' produced no tokens."]
  | .ok _ => []
  | .error e => ["Lex error at " ++ e.position.display ++ ": " ++ e.text]

theorem warning_plain :
    diagnosticLine false (.ofMessage .unitHasNoTokens [path] none) =
      "warning DM2001: Unit '" ++ path ++ "' produced no tokens." := by
  have known : "" ++ "warning" ++ (" " ++ ("DM" ++ toString 2001)) ++ ": " ++ "Unit '" =
      "warning DM2001: Unit '" := by decide
  change "" ++ "warning" ++ (" " ++ ("DM" ++ toString 2001)) ++ ": " ++
    Message.unitHasNoTokens.format [path] = _
  rw [Message.format_unitHasNoTokens, ← known]
  simp only [String.append_assoc]

theorem remarks_plain : remarks lexed path false = plainRemarks lexed path := by
  unfold remarks plainRemarks
  cases lexed path with
  | error e => rfl
  | ok tokens =>
    cases tokens with
    | nil => exact congrArg (fun line => [line]) (warning_plain path)
    | cons t tokens => rfl

end

/-- The lines at the end of a run that count its errors. -/
def closingLines (coloured : Bool) (errors : Nat) : List String :=
  if errors = 0 then [] else ["", summaryLine coloured errors]

/-- The lines at the end of a run that count its errors, without colours. -/
def plainSummary (errors : Nat) : List String :=
  if errors = 0 then []
  else ["", "Found " ++ toString errors ++ if errors = 1 then " error." else " errors."]

theorem closingLines_plain (errors : Nat) : closingLines false errors = plainSummary errors := rfl

namespace Reporter

variable (r : Reporter)

theorem relay_lexUnit (o : Options) (unit text : String) :
    r.relay (lexUnit o unit text .empty).2 =
      match (lexUnit o unit text .empty).1 with
      | .ok _ => r
      | .error e => r.report e.text e.position := by
  rw [lexUnit_told]
  cases (lexUnit o unit text .empty).1 <;> rfl

/-- A unit without tokens is no error. -/
theorem emit_unitHasNoTokens (unit : String) :
    r.emit (.ofMessage .unitHasNoTokens [unit] none) =
      r.write (diagnosticLine r.coloured (.ofMessage .unitHasNoTokens [unit] none)) := rfl

theorem closing_eq : r.closing = closingLines r.coloured r.errors := by
  unfold closing summary? closingLines
  by_cases clean : r.errors = 0
  · rw [if_pos clean, if_pos clean]
  · rw [if_neg clean, if_neg clean]

end Reporter

/-- What a run that started with this reporter has to show when it is done with these files. -/
structure Progress.Shows (lexed : String → Except LexError (List Token)) (reporter : Reporter)
    (done : List String) (progress : Progress) : Prop where
  units : progress.units = done.filterMap (unit? lexed)
  coloured : progress.reporter.coloured = reporter.coloured
  errors : progress.reporter.errors = reporter.errors + done.countP (fails lexed)
  lines : progress.reporter.lines =
    reporter.lines ++ done.flatMap fun path => remarks lexed path reporter.coloured

namespace Progress.Shows

variable {lexed : String → Except LexError (List Token)} {reporter : Reporter} {o : Options}
  {disk : Disk} {progress : Progress} {done paths : List String} {path text : String}

theorem start (lexed : String → Except LexError (List Token)) (reporter : Reporter) :
    Shows lexed reporter [] ⟨[], reporter⟩ where
  units := rfl
  coloured := rfl
  errors := rfl
  lines := (List.append_nil _).symm

/-- A file adds its unit or its error. -/
theorem lexFile (h : Shows lexed reporter done progress)
    (same : lexed path = (lexUnit o path text .empty).1) :
    Shows lexed reporter (done ++ [path]) (lexFile o progress path text) := by
  have relayed := progress.reporter.relay_lexUnit o path text
  rw [← same] at relayed
  unfold Command.lexFile
  simp only [← same, relayed]
  obtain ⟨units, coloured, errors, lines⟩ := h
  cases result : lexed path with
  | error e =>
    constructor
    · simp [units, unit?, result]
    · exact coloured
    · simp [Reporter.report, Reporter.count, Reporter.write, errors, fails, result, Nat.add_assoc]
    · simp [Reporter.report, Reporter.count, Reporter.write, lines, remarks, result, coloured]
  | ok tokens =>
    cases tokens with
    | nil =>
      simp only [List.isEmpty_nil, if_true, Reporter.emit_unitHasNoTokens]
      constructor
      · simp [units, unit?, result]
      · exact coloured
      · simp [Reporter.write, errors, fails, result]
      · simp [Reporter.write, lines, remarks, result, coloured]
    | cons t tokens =>
      simp only [List.isEmpty_cons, Bool.false_eq_true, if_false]
      constructor
      · simp [units, unit?, result]
      · exact coloured
      · simp [errors, fails, result]
      · simp [lines, remarks, result]

/-- Files add their units and errors in their order. -/
theorem lexFiles (h : Shows lexed reporter done progress)
    (readable : ∀ path ∈ paths, ∃ text, disk.text? path = some text ∧
      lexed path = (lexUnit o path text .empty).1) :
    ∃ last, lexFiles disk o progress paths = (last, none) ∧
      Shows lexed reporter (done ++ paths) last := by
  induction paths generalizing progress done with
  | nil => exact ⟨progress, rfl, (List.append_nil done).symm ▸ h⟩
  | cons path paths ih =>
    obtain ⟨⟨text, found, same⟩, others⟩ := List.forall_mem_cons.1 readable
    obtain ⟨last, passed, shows⟩ := ih (h.lexFile same) others
    rw [List.append_assoc, List.singleton_append] at shows
    refine ⟨last, ?_, shows⟩
    rw [Command.lexFiles, found]
    exact passed

end Progress.Shows

/-- A run whose files can all be read shows the units that lex and remarks on the others. -/
theorem run_of_texts {invocation : Invocation} {disk : Disk} {found : Inputs}
    {contents : String → String} (resolved : inputs invocation disk = .ok found)
    (listed : found.files ≠ [])
    (readable : ∀ path ∈ found.files, disk.text? path = some (contents path)) (terminal : Bool) :
    run invocation terminal disk =
      { exitCode := if 0 < found.files.countP (fails (lexedTo found.options contents)) then 2 else 0
        stdout := listing invocation.format (invocation.has .pretty)
          (found.files.filterMap (unit? (lexedTo found.options contents)))
        reports :=
          (found.files.flatMap fun path =>
            remarks (lexedTo found.options contents) path (coloured invocation terminal)) ++
          closingLines (coloured invocation terminal)
            (found.files.countP (fails (lexedTo found.options contents)))
        failure := none } := by
  have filled : found.files.isEmpty = false := by simpa using listed
  have texts : ∀ path ∈ found.files, ∃ text, disk.text? path = some text ∧
      lexedTo found.options contents path = (lexUnit found.options path text .empty).1 :=
    fun path member => ⟨contents path, readable path member, rfl⟩
  obtain ⟨last, passed, shows⟩ := (Progress.Shows.start (lexedTo found.options contents)
    (.start (!invocation.has .noColor) terminal)).lexFiles texts
  rw [List.nil_append] at shows
  have errors : last.reporter.errors =
      found.files.countP (fails (lexedTo found.options contents)) :=
    shows.errors.trans (Nat.zero_add _)
  have closing := last.reporter.closing_eq
  rw [shows.coloured, errors] at closing
  simp only [run, resolved, lexInputs, filled, passed, Bool.false_eq_true, if_false, shows.units,
    shows.lines, errors, closing]
  rfl

/-- A run whose files can all be read writes the tokens of those that lex, in their order and in the
format that is wanted, and nothing for the others. Without colours it reports the error of every
file that does not lex and warns of every one without tokens, and at the end says how many files do
not lex, if there are any. Only then it exits with 2, and else with 0. -/
theorem run_of_readable {invocation : Invocation} {terminal : Bool} {disk : Disk} {found : Inputs}
    {contents : String → String} (resolved : inputs invocation disk = .ok found)
    (listed : found.files ≠ [])
    (readable : ∀ path ∈ found.files, disk.text? path = some (contents path))
    (plain : terminal = false ∨ invocation.has .noColor) :
    run invocation terminal disk =
      { exitCode := if 0 < found.files.countP (fails (lexedTo found.options contents)) then 2 else 0
        stdout := listing invocation.format (invocation.has .pretty)
          (found.files.filterMap (unit? (lexedTo found.options contents)))
        reports := found.files.flatMap (plainRemarks (lexedTo found.options contents)) ++
          plainSummary (found.files.countP (fails (lexedTo found.options contents)))
        failure := none } := by
  have colourless : coloured invocation terminal = false := by
    rcases plain with piped | declined
    · simp [coloured, piped]
    · simp [coloured, declined]
  rw [run_of_texts resolved listed readable terminal, colourless, closingLines_plain]
  simp only [remarks_plain]

/-- Arguments with a file that lexes, one that does not and an empty one. -/
theorem run_of_readable_of_mixed_files :
    ∃ invocation found,
      Invocation.parse? ["--no-color", "a.dm", "b.dm", "c.dm"] = some invocation ∧
      inputs invocation (.ofEntries [("a.dm", some "x"), ("b.dm", some " y"), ("c.dm", some "")]) =
        .ok found ∧
      found.files ≠ [] ∧ invocation.has .noColor ∧
      run invocation true
          (.ofEntries [("a.dm", some "x"), ("b.dm", some " y"), ("c.dm", some "")]) =
        { exitCode := 2
          stdout := "a.dm:1:1\tIDENT(\x22x\x22)\n"
          reports :=
            ["Lex error at b.dm:1:1: Spaces are not allowed for indentation. Please use tabs.",
              "warning DM2001: Unit 'c.dm' produced no tokens.", "", "Found 1 error."]
          failure := none } := by
  have accepted : Invocation.parse? ["--no-color", "a.dm", "b.dm", "c.dm"] =
      some ⟨["a.dm", "b.dm", "c.dm"], [.noColor], none, .text, none⟩ := by decide +kernel
  have resolved : inputs ⟨["a.dm", "b.dm", "c.dm"], [.noColor], none, .text, none⟩
      (.ofEntries [("a.dm", some "x"), ("b.dm", some " y"), ("c.dm", some "")]) =
        .ok ⟨["a.dm", "b.dm", "c.dm"], .standard⟩ := rfl
  have readable : ∀ path ∈ ["a.dm", "b.dm", "c.dm"],
      (Disk.ofEntries [("a.dm", some "x"), ("b.dm", some " y"), ("c.dm", some "")]).text? path =
        some (if path = "a.dm" then "x" else if path = "b.dm" then " y" else "") := by decide
  have listed : ["a.dm", "b.dm", "c.dm"] ≠ [] := List.cons_ne_nil _ _
  refine ⟨_, _, accepted, resolved, listed, rfl, ?_⟩
  rw [run_of_readable resolved listed readable (.inr rfl)]
  decide +kernel

end Command

end DreamLexer
