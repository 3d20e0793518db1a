import Offside.Command.Run

/-!
# What a run may look at

The places of the file tree that a run can depend on: those on the way to the files with settings, to
the source and to the destination. A tree that is right at these places is as good as the whole one.
-/

namespace Offside.Command

/-- The places that a path leads through, from a place on. -/
def passed (place : Place) : List Text → List Place
  | [] => []
  | part :: parts =>
    let next := if part = Path.up then place.dropLast else place ++ [part]
    next :: passed next parts

/-- The places that a path leads through, seen from a working directory. -/
def passedBy (here : Place) (path : Text) : List Place :=
  let p := Path.ofText path
  passed (if p.absolute then [] else here) p.parts

/-- The paths that the arguments and the environment name. -/
def namedPaths (arguments : List Bytes) (s : Settings.Surroundings) : List Text :=
  let given := (Settings.readArguments (split arguments).1).1
  let files := (s.candidates given.configPath).map Settings.Candidate.path
  match Invocation.parse (split arguments).2 with
  | .error _ => []
  | .ok i => files ++ i.inputPath?.toList ++ i.outputPath?.toList

/-- The places that a run may look at. -/
def reach (arguments : List Bytes) (s : Settings.Surroundings) : List Place :=
  (passed [] s.here ++ (namedPaths arguments s).flatMap (passedBy s.here)).eraseDups

/-- Whether a run reads the standard input. -/
def readsInput (arguments : List Bytes) : Bool :=
  match Invocation.parse (split arguments).2 with
  | .error _ => false
  | .ok i => i.inputPath?.isNone

end Offside.Command
