import DreamLexer.Project.Config

/-!
# Paths

A path is a text whose components are parted by slashes. Empty components, and those that are a
single dot and not the first one, name nothing. A file of a project is found from the directory
that holds the project file.
-/

namespace DreamLexer.Path

/-- The stretches between the slashes. -/
def segments : List Char → List (List Char)
  | [] => [[]]
  | c :: rest =>
    if c = '/' then [] :: segments rest
    else
      match segments rest with
      | [] => [[c]]
      | first :: others => (c :: first) :: others

/-- The stretches with slashes between them. -/
def ofSegments (parts : List (List Char)) : List Char := ['/'].intercalate parts

/-- Whether a stretch names nothing. -/
def isSilent (segment : List Char) : Bool := segment == [] || segment == ['.']

/-- Whether the path starts at the root. -/
def isAbsolute (path : List Char) : Bool := path.head? == some '/'

/-- Whether the path's first component is a single dot. -/
def startsAtDot (path : List Char) : Bool := (segments path).head? == some ['.']

/-- The part of a path that no directory lies above: the slash of an absolute path, or a leading
dot. -/
def root (path : List Char) : List Char :=
  if isAbsolute path then ['/'] else if startsAtDot path then ['.'] else []

/-- The path without its last component, if that is not the root itself. -/
def parent? (path : List Char) : Option (List Char) :=
  let lead := root path
  match (segments (path.drop lead.length)).reverse.dropWhile isSilent with
  | _ :: above => some (lead ++ ofSegments (above.dropWhile isSilent).reverse)
  | [] => if lead = ['.'] then some [] else none

/-- A path seen from a directory. -/
def join (directory path : List Char) : List Char :=
  if isAbsolute path then path
  else if directory = [] ∨ directory.getLast? = some '/' then directory ++ path
  else directory ++ '/' :: path

end DreamLexer.Path

namespace DreamLexer.Project

/-- The paths of the project's files, for a project file at this path. -/
def resolve (project : Project) (projectPath : String) : List String :=
  let directory := (Path.parent? projectPath.toList).getD ['.']
  project.files.map fun file => String.ofList (Path.join directory file.toList)

end DreamLexer.Project
