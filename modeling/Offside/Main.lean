import Offside.Command.Reach
import Offside.Log.Record

/-!
# The command

Collects what a run may look at, runs, and carries out what the run decided.
-/

open Offside

namespace Offside.Main

/-- The variables that can make a difference. -/
def variableNames : List String :=
  let settings := ["BYTHON_INDENT_SIZE", "BYTHON_LOG_FILTER", "BYTHON_LOG_FORMAT"]
  ["HOME", "XDG_CONFIG_DIRS", "BYTHON_CONFIG_PATH"] ++ settings ++ settings.map String.toLower

/-- The path of a place. -/
def pathOf (place : Place) : String :=
  if place.isEmpty then "/" else String.ofList (place.flatMap fun name => '/' :: name)

/-- The variables of the environment that settings come from. -/
def collectVariables : IO Settings.Environment.Variables := do
  let found ← variableNames.filterMapM fun name => do
    return (← IO.getEnv name).map fun value => (name.toList, value.toList)
  return found

/-- Adds what stands at a place to a tree; nothing, if it cannot be read. -/
def collectPlace (tree : FileTree) (place : Place) : IO FileTree := do
  try
    let path ← IO.FS.realPath (pathOf place)
    if ← path.isDir then return tree.insert place .directory
    let content ← IO.FS.readBinFile path
    return tree.insert place (.file content.toList)
  catch _ => return tree

/-- Reads a stream to its end, after the bytes already read. -/
partial def readAll (stream : IO.FS.Stream) (read : ByteArray) : IO ByteArray := do
  let chunk ← stream.read 65536
  if chunk.isEmpty then return read else readAll stream (read ++ chunk)

/-- The standard input, with the failure that ends it, if one does. -/
def collectInput (needed : Bool) : IO Source := do
  if !needed then return { bytes := [] }
  try
    return { bytes := (← readAll (← IO.getStdin) .empty).toList }
  catch e => return { bytes := [], failure := some (toString e) }

/-- Gathers everything the command can see. -/
def collect (arguments : List Bytes) : IO Command.World := do
  let environment ← collectVariables
  let here := (Path.ofText (← IO.currentDir).toString.toList).parts
  let empty : Settings.Surroundings := { environment, here }
  let tree ← (Command.reach arguments empty).foldlM collectPlace empty.tree
  let input ← collectInput (Command.readsInput arguments)
  return { arguments, surroundings := { empty with tree }, input }

/-- Writes the files that a run changed. -/
def writeFiles (before after : FileTree) : IO Unit :=
  (before.changes after).forM fun change =>
    IO.FS.writeBinFile (pathOf change.1) change.2.toByteArray

end Offside.Main

def main (args : List String) : IO UInt32 := do
  let arguments := ("bython" :: args).map Bytes.ofString
  let world ← Main.collect arguments
  let outcome := world.run
  Main.writeFiles world.surroundings.tree outcome.tree
  let errors ← IO.getStderr
  outcome.logged.forM fun e => errors.putStrLn (String.ofList (Log.record outcome.format e))
  errors.putStr (String.ofList outcome.stderr)
  let out ← IO.getStdout
  out.putStr (String.ofList outcome.stdout)
  out.flush
  return if outcome.success then 0 else 1
