import Offside.Command.Invocation
import Offside.Command.Split
import Offside.Conversion
import Offside.Log.Filter
import Offside.Settings.Load

/-!
# Running the command

`run` takes everything the command can see and gives everything it does: what it writes, the files
after it, its exit status and its events. A run is a sequence of acts, each of which adds to a trail or
fails; a failure ends the run, and takes nothing back that was done before it.
-/

namespace Offside.Command

/-- What was set up for logging before a run. The first run of a process that gets so far sets it up, and
later runs leave it as it is. -/
inductive Logging where
  | fresh
  /-- An earlier run set up a filter and a format; if they are not given, nothing is let through. -/
  | established (filter : Log.Filter := .off) (format : LogFormat := .json)
  deriving Repr, DecidableEq

/-- The filter and the format in force before a run. -/
def Logging.inForce : Logging → Option (Log.Filter × LogFormat)
  | fresh => none
  | established filter format => some (filter, format)

/-- Everything the command can see. -/
structure World where
  arguments : List Bytes
  surroundings : Settings.Surroundings := {}
  /-- The standard input. -/
  input : Source := { bytes := [] }
  /-- Why the standard output takes nothing, if it does not. -/
  outputFailure : Option String := none
  logging : Logging := .fresh

/-- Why a run fails. -/
inductive Failure where
  | usage (fault : Options.Fault)
  | settings (faults : List Settings.LoadFault)
  | filter
  | width (fault : Width.Fault)
  | read (path : Text) (fault : FileFault)
  | conversion (fault : ConversionFault)
  | write (path : Text) (fault : FileFault)
  | output (reason : String)
  deriving Repr, DecidableEq

/-- The kind of a fault in the settings. -/
def faultKind : Settings.LoadFault → Text
  | .arguments _ => "arguments".toList
  | .file failed => "file ".toList ++ failed.path
  | .merge => "values".toList

namespace Failure

/-- What is said about a failure. -/
def message (arguments : List Bytes) : Failure → Text
  | usage fault =>
    fault.message ++ "\n\n".toList ++ Command.usage arguments ++
      "\nFor more information, try '--help'.\n".toList
  | settings faults =>
    "failed to load configuration: ".toList ++ List.intercalate ", ".toList (faults.map faultKind)
  | filter => "invalid log filter: invalid filter directive".toList
  | width fault => ("invalid indent size: " ++ fault.message).toList
  | read path fault => "failed to read ".toList ++ path ++ (": " ++ fault.message).toList
  | conversion fault => fault.message.toList
  | write path fault => "failed to write ".toList ++ path ++ (": " ++ fault.message).toList
  | output reason => ("failed to write standard output: " ++ reason).toList

end Failure

/-- What a run has done so far: what it wrote, its events, and the filter and the format in force. -/
structure Trail where
  stdout : Text := []
  /-- The files as they are now. -/
  tree : FileTree
  events : List Event := []
  log : Option (Log.Filter × LogFormat) := none

/-- Everything a run does. -/
structure Outcome where
  success : Bool
  stdout : Text
  stderr : Text
  tree : FileTree
  events : List Event
  /-- The events that are logged, and the format. -/
  logged : List Event
  format : LogFormat

/-- What a run comes to that left a trail. -/
def Trail.outcome (t : Trail) (success : Bool) (stderr : Text) : Outcome where
  success := success
  stdout := t.stdout
  stderr := stderr
  tree := t.tree
  events := t.events
  logged := match t.log with
    | none => []
    | some (filter, _) => t.events.filter filter.admits
  format := (t.log.map Prod.snd).getD Settings.standard.logFormat

/-- A part of a run. It adds to the trail and gives a value, or fails; what it did before it failed
stays done. -/
abbrev Act := EStateM Failure Trail

namespace Act

/-- Tells of events. -/
def tell (events : List Event) : Act Unit := modify fun t => { t with events := t.events ++ events }

/-- The value of a result, or the failure that its fault means. -/
def ofExcept {ε α : Type} (failure : ε → Failure) : Except ε α → Act α
  | .ok a => pure a
  | .error fault => throw (failure fault)

/-- The text of a conversion that succeeded. -/
def ofRun (run : Run Text) : Act Text := do
  tell run.events
  ofExcept .conversion run.result

end Act

namespace World

/-- Writes to the standard output. An empty text always can be written. Handing the text over and having
it passed on to its end are one step here: no failure lies between the two. -/
def writeOut (w : World) (text : Text) : Act Unit :=
  match w.outputFailure with
  | some reason => if text.isEmpty then pure () else throw (.output reason)
  | none => modify fun t => { t with stdout := t.stdout ++ text }

/-- Writes a file. -/
def writeFile (w : World) (path text : Text) : Act Unit := do
  let written := (← get).tree.write w.surroundings.here (.ofText path) (Utf8.encode text)
  let tree ← Act.ofExcept (.write path) written
  modify fun t => { t with tree }

/-- Loads the settings. -/
def loadSettings (w : World) (arguments : List Bytes) : Act Settings := do
  Act.ofExcept .settings (Settings.load { w.surroundings with tree := (← get).tree } arguments)

/-- Sets up the logging that the settings ask for, if this is still to be done. -/
def startLogging (w : World) (s : Settings) : Act Unit :=
  match w.logging with
  | .established .. => pure ()
  | .fresh =>
    match Log.Filter.parse s.logFilter with
    | some filter => modify fun t => { t with log := some (filter, s.logFormat) }
    | none => throw .filter

/-- Reads and converts the source. -/
def convert (w : World) (i : Invocation) (width : Width) : Act Text := do
  let converter : Converter := { width }
  match i.inputPath? with
  | some path =>
    Act.tell [.readingFile path]
    let text ← Act.ofExcept (.read path) ((← get).tree.readText w.surroundings.here (.ofText path))
    Act.ofRun (converter.convertText text)
  | none =>
    Act.tell [.readingInput]
    Act.ofRun (converter.convertSource w.input)

/-- Writes the converted text to where it belongs. -/
def deliver (w : World) (i : Invocation) (text : Text) : Act Unit := do
  match i.outputPath? with
  | none => w.writeOut text
  | some path =>
    w.writeFile path text
    Act.tell [.fileWritten path (Text.byteSize text)]

/-- Loads the settings and does the work. -/
def perform (w : World) (settingsArguments : List Bytes) (i : Invocation) : Act Unit := do
  let settings ← w.loadSettings settingsArguments
  w.startLogging settings
  let width ← Act.ofExcept .width settings.width
  let text ← w.convert i width
  w.deliver i text

/-- Reads the arguments and does what they ask for. -/
def attempt (w : World) : Act Unit := do
  let (settingsArguments, commandArguments) := split w.arguments
  match Invocation.parse commandArguments with
  | .error (.fault fault) => throw (.usage fault)
  | .error .help => w.writeOut (helpText commandArguments)
  | .error .version => w.writeOut versionText
  | .ok invocation => w.perform settingsArguments invocation

/-- The trail before anything is done. -/
def start (w : World) : Trail := { tree := w.surroundings.tree, log := w.logging.inForce }

/-- Runs the command. -/
def run (w : World) : Outcome :=
  match w.attempt w.start with
  | .ok _ trail => trail.outcome true []
  | .error failure trail => trail.outcome false (failure.message w.arguments ++ ['\n'])

end World

end Offside.Command
