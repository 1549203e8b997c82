import DreamLexer.Command.Disk
import DreamLexer.Command.Listing
import DreamLexer.Command.Reporter
import DreamLexer.Lexer.Basic

/-!
# A run of the command

A run finds out which files to lex and how, lexes them one after the other, and writes the tokens of
all units that were lexed once every file was read. A file that cannot be read ends the run, and
nothing is written.

The reports of a run are the lines of its reporter. Log lines, which `-v` or the environment may ask
for, go the same way as the reports but are none of them, and are left out here.
-/

namespace DreamLexer.Command

/-- What ends a run before its time. -/
inductive Failure where
  | project (path : String)
  | file (path : String)
deriving DecidableEq

/-- The headline of a failure. -/
def Failure.display : Failure → String
  | .project path => "failed to load project '" ++ path ++ "'"
  | .file path => "failed to read '" ++ path ++ "'"

/-- What a run leaves behind. -/
structure Outcome where
  exitCode : UInt32
  stdout : String
  /-- The lines that the reporter wrote, without any log lines. -/
  reports : List String
  failure : Option Failure
deriving DecidableEq

/-- The files to lex and the options to lex them with. -/
structure Inputs where
  files : List String
  options : Options
deriving DecidableEq

/-- The path of the project file in force: the one that is named, else the standard one if there
is something under its name. -/
def projectPath? (invocation : Invocation) (disk : Disk) : Option String :=
  match invocation.project with
  | some path => some path
  | none => if disk.holds Project.standardPath then some Project.standardPath else none

/-- The project under a path. -/
def loadProject (disk : Disk) (path : String) : Except Failure Project :=
  match (disk.text? path).map Project.parse with
  | some (.ok project) => .ok project
  | _ => .error (.project path)

/-- The files and options that a project stands for. -/
def projectInputs (invocation : Invocation) (disk : Disk) : Except Failure Inputs :=
  match projectPath? invocation disk with
  | none => .ok ⟨[], .standard⟩
  | some path =>
    match loadProject disk path with
    | .error failure => .error failure
    | .ok project => .ok ⟨project.resolve path, project.options⟩

/-- The inputs of a run: files on the command line stand for those of the project. -/
def inputs (invocation : Invocation) (disk : Disk) : Except Failure Inputs :=
  match projectInputs invocation disk with
  | .error failure => .error failure
  | .ok found =>
    .ok ⟨if invocation.files.isEmpty then found.files else invocation.files,
      invocation.override found.options⟩

/-- What a run has to show: the units lexed, the first one first, and what was reported. -/
structure Progress where
  units : List UnitTokens
  reporter : Reporter
deriving DecidableEq

/-- Lexes a file, which is reported if it has no tokens. The lexer reports its error. -/
def lexFile (o : Options) (progress : Progress) (path text : String) : Progress :=
  let (result, told) := lexUnit o path text .empty
  let reporter := progress.reporter.relay told
  match result with
  | .error _ => { progress with reporter := reporter }
  | .ok tokens =>
    { units := progress.units ++ [⟨path, tokens⟩]
      reporter :=
        if tokens.isEmpty then reporter.emit (.ofMessage .unitHasNoTokens [path] none)
        else reporter }

/-- Lexes files up to the first that cannot be read, and gives that one. -/
def lexFiles (disk : Disk) (o : Options) (progress : Progress) :
    List String → Progress × Option String
  | [] => (progress, none)
  | path :: paths =>
    match disk.text? path with
    | none => (progress, some path)
    | some text => lexFiles disk o (lexFile o progress path text) paths

/-- Runs the command on inputs that are found. -/
def lexInputs (invocation : Invocation) (reporter : Reporter) (disk : Disk) (found : Inputs) :
    Outcome :=
  if found.files.isEmpty then ⟨1, "", (reporter.error "No input files found.").lines, none⟩
  else
    match lexFiles disk found.options ⟨[], reporter⟩ found.files with
    | (progress, some path) => ⟨1, "", progress.reporter.lines, some (.file path)⟩
    | (progress, none) =>
      { exitCode := if 0 < progress.reporter.errors then 2 else 0
        stdout := listing invocation.format (invocation.has .pretty) progress.units
        reports := progress.reporter.lines ++ progress.reporter.closing
        failure := none }

/-- Runs the command. Reports are coloured on a terminal, unless that is declined. -/
def run (invocation : Invocation) (terminal : Bool) (disk : Disk) : Outcome :=
  match inputs invocation disk with
  | .error failure => ⟨1, "", [], some failure⟩
  | .ok found => lexInputs invocation (.start (!invocation.has .noColor) terminal) disk found

end DreamLexer.Command
