import Offside.Files.Path
import Offside.Text.Utf8

/-!
# File trees

Directories and files by the names that lead to them from the root. A file is reached through its
directory: every part of the way to it has to be a directory. No name is longer than a limit or holds a
null character. Links and permissions are left out.
-/

namespace Offside

/-- What stands at a place of a tree. -/
inductive Entry where
  | directory
  | file (content : Bytes)
  deriving Repr, DecidableEq

/-- A place: the names that lead to it from the root. -/
abbrev Place := List Text

/-- Directories and files, each under its place. The root is a directory without an entry. -/
structure FileTree where
  entries : List (Place × Entry) := []
  deriving Repr, DecidableEq

/-- Why a file cannot be read or written. -/
inductive FileFault where
  | unnamed
  | missing
  | isDirectory
  | notDirectory
  | nameTooLong
  /-- A null character on the way to the directory of the file. -/
  | nullOnWay
  /-- A null character in the name of the file. -/
  | nullInName
  | notText
  deriving Repr, DecidableEq

/-- What is said about a file that cannot be used. -/
def FileFault.message : FileFault → String
  | unnamed => "path does not name a file"
  | missing => "No such file or directory (os error 2)"
  | isDirectory => "Is a directory (os error 21)"
  | notDirectory => "Not a directory (os error 20)"
  | nameTooLong => "File name too long (os error 36)"
  | nullOnWay => "file name contained an unexpected NUL byte"
  | nullInName => "Invalid argument (os error 22)"
  | notText => "stream did not contain valid UTF-8"

namespace FileTree

/-- The greatest number of bytes in a name. -/
def nameLimit : Nat := 255

/-- The character that no name holds. -/
def null : Char := '\x00'

/-- What stands at a place. -/
def get? (t : FileTree) (place : Place) : Option Entry :=
  if place = [] then some .directory else t.entries.lookup place

/-- Puts an entry at a place. -/
def insert (t : FileTree) (place : Place) (entry : Entry) : FileTree where
  entries := (place, entry) :: t.entries.filter fun e => e.1 != place

/-- Makes every place on the way, and the place itself, a directory if nothing stands there. -/
def withDirectories (t : FileTree) (place : Place) : FileTree :=
  (List.range (place.length + 1)).foldl
    (fun t k => if (t.get? (place.take k)).isSome then t else t.insert (place.take k) .directory) t

/-- Puts a file, or a directory, at a place, and the directories on the way. -/
def add (t : FileTree) (place : Place) (content : Option Bytes) : FileTree :=
  match content with
  | some bytes => (t.withDirectories place.dropLast).insert place (.file bytes)
  | none => t.withDirectories place

/-- Follows directories from one place to another. -/
def walk (t : FileTree) : Place → List Text → Except FileFault Place
  | place, [] => .ok place
  | place, part :: parts =>
    if part = Path.up then t.walk place.dropLast parts
    else if nameLimit < Text.byteSize part then .error .nameTooLong
    else
      match t.get? (place ++ [part]) with
      | none => .error .missing
      | some (.file _) => .error .notDirectory
      | some .directory => t.walk (place ++ [part]) parts

/-- The directory that a path leads to before its name, seen from a working directory. The way is looked
through for null characters before its first part is followed. -/
def parentOf (t : FileTree) (here : Place) (path : Path) : Except FileFault Place :=
  if path.parent.any (·.contains null) then .error .nullOnWay
  else t.walk (if path.absolute then [] else here) path.parent

/-- The place of the file that a path names, seen from a working directory. -/
def locate (t : FileTree) (here : Place) (path : Path) : Except FileFault Place :=
  match path.name? with
  | none => .error .unnamed
  | some name =>
    match t.parentOf here path with
    | .error fault => .error fault
    | .ok place =>
      if name.contains null then .error .nullInName
      else if nameLimit < Text.byteSize name then .error .nameTooLong
      else .ok (place ++ [name])

/-- The content of a file. -/
def read (t : FileTree) (here : Place) (path : Path) : Except FileFault Bytes :=
  match t.locate here path with
  | .error fault => .error fault
  | .ok place =>
    match t.get? place with
    | none => .error .missing
    | some .directory => .error .isDirectory
    | some (.file content) => .ok content

/-- The content of the file that a path leads to if it is followed to its very end: through every part,
and not to a file if only a directory can stand there. -/
def follow (t : FileTree) (here : Place) (path : Path) : Except FileFault Bytes :=
  match path.name?, t.read here path with
  | none, _ => (t.parentOf here path).bind fun _ => .error .isDirectory
  | some _, .ok content => if path.toDirectory then .error .notDirectory else .ok content
  | some _, .error fault => .error fault

/-- The content of a file that holds text. -/
def readText (t : FileTree) (here : Place) (path : Path) : Except FileFault Text :=
  match t.read here path with
  | .error fault => .error fault
  | .ok content =>
    match Utf8.decode content with
    | some text => .ok text
    | none => .error .notText

/-- The tree with a file written. -/
def write (t : FileTree) (here : Place) (path : Path) (content : Bytes) :
    Except FileFault FileTree :=
  match t.locate here path with
  | .error fault => .error fault
  | .ok place =>
    match t.get? place with
    | some .directory => .error .isDirectory
    | _ => .ok (t.insert place (.file content))

/-- The files of a tree that are not in another one, or differ from it. -/
def changes (before after : FileTree) : List (Place × Bytes) :=
  after.entries.filterMap fun e =>
    match e.2 with
    | .file content => if before.get? e.1 = some (.file content) then none else some (e.1, content)
    | .directory => none

end FileTree

end Offside
