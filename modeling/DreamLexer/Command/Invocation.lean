import DreamLexer.Lexer.Options
import DreamLexer.Text.Decimal

/-!
# The command line

The arguments are files, flags and settings in any order. A setting has a value, behind it or in the
same argument. No flag or setting may be given twice.
-/

namespace DreamLexer.Command

/-- A choice that is made by naming it. -/
inductive Flag where
  | noComments
  | collapseNewlines
  | keywords
  | pretty
  | noColor
  | verbose
deriving DecidableEq

/-- A choice that has a value. -/
inductive Setting where
  | project
  | format
  | tabWidth
deriving DecidableEq

/-- What an argument, with its value if it has one, says. -/
inductive Given where
  | file (path : String)
  | flag (flag : Flag)
  | setting (setting : Setting) (value : String)
deriving DecidableEq

/-- The long names of the flags. -/
def longFlags : List (List Char × Flag) :=
  [("no-comments".toList, .noComments), ("collapse-newlines".toList, .collapseNewlines),
   ("keywords".toList, .keywords), ("pretty".toList, .pretty), ("no-color".toList, .noColor),
   ("verbose".toList, .verbose)]

/-- The long names of the settings. -/
def longSettings : List (List Char × Setting) :=
  [("project".toList, .project), ("format".toList, .format), ("tab-width".toList, .tabWidth)]

/-- What one argument says, and the setting, if any, whose value has to follow it. -/
structure Word where
  given : List Given
  pending : Option Setting

/-- Reads a long argument behind its dashes. -/
def readLong? (text : List Char) : Option Word :=
  let name := text.takeWhile (· != '=')
  match longFlags.lookup name, longSettings.lookup name, text.dropWhile (· != '=') with
  | some flag, _, [] => some ⟨[.flag flag], none⟩
  | some _, _, _ => none
  | none, some setting, [] => some ⟨[], some setting⟩
  | none, some setting, _ :: value => some ⟨[.setting setting (String.ofList value)], none⟩
  | none, none, _ => none

/-- Reads the letters behind a single dash. The letter of a setting takes all that stands behind
it, less an equals sign, as its value. -/
def readLetters? : List Char → Option Word
  | [] => some ⟨[], none⟩
  | letter :: behind =>
    if letter = 'v' then
      (readLetters? behind).map fun word => { word with given := .flag .verbose :: word.given }
    else if letter = 'p' then
      match behind with
      | [] => some ⟨[], some .project⟩
      | c :: value =>
        some ⟨[.setting .project (String.ofList (if c = '=' then value else behind))], none⟩
    else none

/-- Reads an argument. A single dash is a file. -/
def readWord? (argument : String) : Option Word :=
  match argument.toList with
  | '-' :: '-' :: text => readLong? text
  | '-' :: letter :: letters => readLetters? (letter :: letters)
  | _ => some ⟨[.file argument], none⟩

/-- Whether an argument can be the value of the setting before it. -/
def isValue (argument : String) : Bool :=
  argument.toList.head? != some '-' || argument == "-"

/-- Reads the arguments. Behind two dashes there are files only. -/
def readArguments? : List String → Option (List Given)
  | [] => some []
  | argument :: others =>
    if argument = "--" then some (others.map .file)
    else
      match readWord? argument with
      | none => none
      | some ⟨given, none⟩ => (readArguments? others).map (given ++ ·)
      | some ⟨given, some setting⟩ =>
        match others with
        | [] => none
        | value :: others =>
          if isValue value then
            (readArguments? others).map (given ++ Given.setting setting value :: ·)
          else none

/-- The formats of the output. -/
inductive Format where
  | text
  | json
deriving DecidableEq

/-- The format of this name. -/
def Format.ofName? (name : String) : Option Format :=
  if name = "text" then some .text else if name = "json" then some .json else none

/-- The tab width that a value writes: decimal digits, perhaps behind a plus. -/
def tabWidth? (value : String) : Option UInt32 :=
  let digits := match value.toList with
    | '+' :: digits => digits
    | digits => digits
  let width := Text.decimal digits
  if digits.isEmpty || !digits.all Char.isDigit then none
  else if 1 ≤ width ∧ width ≤ Options.maxTabWidth.toNat then some (UInt32.ofNat width)
  else none

/-- What is asked for on the command line. -/
structure Invocation where
  files : List String
  flags : List Flag
  project : Option String
  format : Format
  tabWidth : Option UInt32
deriving DecidableEq

namespace Invocation

/-- The file an argument names. -/
def file? : Given → Option String
  | .file path => some path
  | _ => none

/-- The flag an argument sets. -/
def flag? : Given → Option Flag
  | .flag flag => some flag
  | _ => none

/-- The setting an argument makes. -/
def setting? : Given → Option (Setting × String)
  | .setting setting value => some (setting, value)
  | _ => none

/-- Reads a value that may be missing. -/
def readValue {α : Type} (read? : String → Option α) (value : Option String) :
    Option (Option α) :=
  match value with
  | none => some none
  | some text => (read? text).map some

/-- The invocation that the arguments make, if they are in order. -/
def parse? (arguments : List String) : Option Invocation := do
  let given ← readArguments? arguments
  let flags := given.filterMap flag?
  let settings := given.filterMap setting?
  let format ← readValue Format.ofName? (settings.lookup .format)
  let tabWidth ← readValue tabWidth? (settings.lookup .tabWidth)
  if flags.Nodup ∧ (settings.map Prod.fst).Nodup then
    some ⟨given.filterMap file?, flags, settings.lookup .project, format.getD .text, tabWidth⟩
  else none

/-- Whether a flag is set. -/
def has (invocation : Invocation) (flag : Flag) : Bool := invocation.flags.contains flag

/-- The options of a project as the command line changes them. -/
def override (invocation : Invocation) (o : Options) : Options where
  emitComments := o.emitComments && !invocation.has .noComments
  collapseNewlines := o.collapseNewlines || invocation.has .collapseNewlines
  keywords := o.keywords || invocation.has .keywords
  tabWidth := invocation.tabWidth.getD o.tabWidth
  closeBlocksAtEof := o.closeBlocksAtEof

end Invocation

end DreamLexer.Command
