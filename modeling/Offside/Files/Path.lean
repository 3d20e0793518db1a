import Offside.Text.Basic

/-!
# Paths

A path is a sequence of parts between slashes, from the root or from the working directory. Empty
parts and single dots mean nothing; two dots lead one directory up and name no file.
-/

namespace Offside

/-- A path: where it starts and its parts. -/
structure Path where
  absolute : Bool
  parts : List Text
  /-- Whether the path ends in a slash or a dot, and so can lead only to a directory. -/
  toDirectory : Bool
  deriving Repr, DecidableEq

namespace Path

/-- The part that leads one directory up. -/
def up : Text := ['.', '.']

/-- Reads a path. -/
def ofText (t : Text) : Path where
  absolute := t.head? == some '/'
  parts := (Text.splitOn '/' t).filter fun part => part != [] && part != ['.']
  toDirectory := (Text.splitOn '/' t).getLast?.any fun part => part == [] || part == ['.']

/-- The name of the file that a path leads to. -/
def name? (p : Path) : Option Text := p.parts.getLast?.filter (· != up)

/-- The parts that lead to the directory of that file. -/
def parent (p : Path) : List Text := p.parts.dropLast

/-- The name after its last dot; a dot at the front of a name does not count. -/
def extension? (p : Path) : Option Text :=
  p.name?.bind fun name =>
    match (Text.splitOn '.' name).reverse with
    | last :: stem :: more => if stem == [] && more == [] then none else some last
    | _ => none

end Path

end Offside
