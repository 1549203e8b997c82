import DreamLexer.Project.Path

/-!
# Disks

A disk says of a path whether there is anything and which text can be read there. A directory of
files is such a disk, seen from that directory.
-/

namespace DreamLexer.Command

/-- What can be found under a path. -/
structure Disk where
  /-- Whether there is a file or directory. -/
  holds : String → Bool
  /-- The text of a file, if there is one and its bytes are UTF-8. -/
  text? : String → Option String

namespace Disk

/-- The disk that holds the paths listed, each with its text if it can be read. -/
def ofEntries (entries : List (String × Option String)) : Disk where
  holds path := (entries.lookup path).isSome
  text? path := (entries.lookup path).join

end Disk

/-- A directory with all files in it and below it, each with the path from here and its bytes. -/
structure Directory where
  files : List (String × ByteArray)

namespace Directory

/-- The names along a path. -/
def names (path : List Char) : List (List Char) :=
  (Path.segments path).filter fun name => !Path.isSilent name

/-- Whether the names lead to a directory: to this one, or to one on the way to a file. -/
def isDirectory (directory : Directory) (place : List (List Char)) : Bool :=
  place.isEmpty || directory.files.any fun (path, _) =>
    place.isPrefixOf (names path.toList) && place != names path.toList

/-- The bytes of the file that the names lead to. -/
def file? (directory : Directory) (place : List (List Char)) : Option ByteArray :=
  (directory.files.find? fun (path, _) => names path.toList == place).map Prod.snd

/-- Follows the stretches of a path from a place. Every stretch is followed from a directory, and a
silent one stays there. Two dots lead back, but not out of this directory. -/
def follow (directory : Directory) (place : List (List Char)) :
    List (List Char) → Option (List (List Char))
  | [] => some place
  | name :: names =>
    if !directory.isDirectory place then none
    else if Path.isSilent name then follow directory place names
    else if name = ['.', '.'] then
      if place.isEmpty then none else follow directory place.dropLast names
    else follow directory (place ++ [name]) names

/-- Where a path leads. An empty path leads nowhere, and an absolute one leads out. -/
def locate (directory : Directory) (path : String) : Option (List (List Char)) :=
  if path.isEmpty || Path.isAbsolute path.toList then none
  else directory.follow [] (Path.segments path.toList)

/-- The directory as a disk. -/
def disk (directory : Directory) : Disk where
  holds path :=
    match directory.locate path with
    | none => false
    | some place => directory.isDirectory place || (directory.file? place).isSome
  text? path := do
    let place ← directory.locate path
    String.fromUTF8? (← directory.file? place)

end Directory

end DreamLexer.Command
