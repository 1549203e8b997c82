import DreamLexer.Json.Record
import DreamLexer.Lexer.Options

/-!
# Project files

A project file is a JSON text with lexer options and a list of files. Everything in it may be left
out. Whether the tab width is one that a tab can have is asked only of a text that was read to its
end.
-/

namespace DreamLexer

/-- What a project file says. -/
structure Project where
  options : Options
  files : List String
deriving DecidableEq

/-- Why a project file cannot be used. -/
inductive ProjectError where
  | unreadable (problem : Json.Problem)
  | tabWidthOutOfRange (width : UInt32)
deriving DecidableEq

/-- What to tell about a project file that cannot be used. -/
def ProjectError.display : ProjectError → String
  | .unreadable _ => "invalid project file"
  | .tabWidthOutOfRange width =>
    "tabWidth must be between 1 and " ++ toString Options.maxTabWidth.toNat ++ ", got " ++
      toString width.toNat

namespace Project

/-- A project without files and choices. -/
def standard : Project := ⟨.standard, []⟩

/-- The name a project file has unless one is given. -/
def standardPath : String := "dmlex.json"

/-- A field whose value is read by `read` and put into the record by `put`. -/
def field {σ α : Type} (key : String) (read : Json.Reader α) (put : σ → α → σ) : Json.Field σ where
  key := key
  read := fun record items => do
    let (value, behind) ← read items
    .ok (put record value, behind)

/-- The fields of the lexer options. -/
def optionFields : List (Json.Field Options) :=
  [field "emitComments" Json.readBool fun o value => { o with emitComments := value },
   field "collapseNewlines" Json.readBool fun o value => { o with collapseNewlines := value },
   field "keywords" Json.readBool fun o value => { o with keywords := value },
   field "tabWidth" Json.readCounter fun o value => { o with tabWidth := value },
   field "closeBlocksAtEof" Json.readBool fun o value => { o with closeBlocksAtEof := value }]

/-- The fields of a project. -/
def fields : List (Json.Field Project) :=
  [field "lexerOptions" (Json.readRecord optionFields .standard)
    fun p value => { p with options := value },
   field "files" Json.readStringArray fun p value => { p with files := value }]

/-- Reads a project file. -/
def parse (text : String) : Except ProjectError Project :=
  match Json.readText (Json.readRecord fields standard) text.toList with
  | .error problem => .error (.unreadable problem)
  | .ok project =>
    if Options.isTabWidth project.options.tabWidth then .ok project
    else .error (.tabWidthOutOfRange project.options.tabWidth)

end Project

end DreamLexer
