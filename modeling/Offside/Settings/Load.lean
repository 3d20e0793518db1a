import Offside.Files.Tree
import Offside.Settings.Arguments
import Offside.Settings.Environment
import Offside.Toml.Document

/-!
# Loading the settings

Four layers are laid over each other: the standard settings, the file, the environment and the
arguments. Loading fails if the arguments are refused, if a file is at fault, or if a value that
prevails does not fit its setting; all faults are gathered.

Files with settings are looked for in a fixed order of places, and the first one that can be loaded is
the only one used. A file named by the arguments has to load; a file at one of the other places may be
missing, and counts as a fault only if no file loads at all.

The command itself says only what its settings are, what they are called and what they are without
being given. Where files are looked for, which faults count and how the layers are laid over each other
is decided by the library that loads the settings, which is not a part of the command.
-/

namespace Offside.Settings

/-! ### Files -/

/-- A place where a file with settings may stand. -/
structure Candidate where
  path : Text
  /-- Whether the arguments name it. -/
  required : Bool := false
  deriving Repr, DecidableEq

/-- Where the program runs: its environment and its files. -/
structure Surroundings where
  environment : Environment.Variables := []
  tree : FileTree := {}
  /-- The working directory. -/
  here : Place := []
  deriving Repr, DecidableEq

namespace Surroundings

/-- A path inside a directory. -/
def inside (directory : Text) (path : String) : Text := directory ++ '/' :: path.toList

/-- The directories for settings of all users, which are listed with colons between them. -/
def sharedDirectories (s : Surroundings) : List Text :=
  match Environment.get? s.environment "XDG_CONFIG_DIRS" with
  | none => ["/etc/xdg".toList]
  | some t => (Text.splitOn ':' t).filter (· != [])

/-- The files that stand in a directory for settings. -/
def inDirectory (directory : Text) : List Text :=
  [inside directory "bython/config.toml", inside directory ".bython.toml"]

/-- The files of the user. -/
def ownFiles (s : Surroundings) : List Text :=
  match Environment.get? s.environment "HOME" with
  | none => []
  | some [] => []
  | some home => inDirectory (inside home ".config") ++ [inside home ".bython.toml"]

/-- The file of the working directory. -/
def localFile (s : Surroundings) : Text :=
  (s.here ++ [".bython.toml".toList]).flatMap fun name => '/' :: name

/-- Where to look for a file when the arguments name none, or one that does not load. -/
def usualFiles (s : Surroundings) : List Text :=
  ((Environment.get? s.environment "BYTHON_CONFIG_PATH").toList.filter (· != [])) ++
    (s.sharedDirectories.flatMap inDirectory) ++ s.ownFiles ++ [s.localFile]

/-- Every place to look at, in order and each only once. -/
def candidates (s : Surroundings) (named : Option Bytes) : List Candidate :=
  let required : List Candidate :=
    named.toList.map fun path => { path := Utf8.lossy path, required := true }
  let usual : List Candidate := s.usualFiles.map fun path => { path }
  (required ++ usual).foldl
    (fun seen c => if seen.any (·.path == c.path) then seen else seen ++ [c]) []

end Surroundings

/-- Why a file gives no settings. -/
inductive FileProblem where
  | unreadable (fault : FileFault)
  /-- The file is in a notation other than TOML. -/
  | otherNotation
  | invalid
  /-- The file is right only by the later edition of the notation, which settings do not use. -/
  | newer
  deriving Repr, DecidableEq

/-- The notations that a file is taken to be in by its name, and that cannot be read. -/
def otherNotations : List Text := ["json", "json5", "yaml", "yml"].map String.toList

/-- What the text of a file gives. -/
def Layer.ofDocument (t : Text) : Except FileProblem Layer :=
  match Toml.parse .v11 t, Toml.parse .v10 t with
  | none, _ => .error .invalid
  | some _, none => .error .newer
  | some _, some entries => .ok (.ofFields (Toml.Entries.toFields entries))

/-- What the file at a path gives. -/
def loadFile (s : Surroundings) (path : Text) : Except FileProblem Layer :=
  let p := Path.ofText path
  match s.tree.follow s.here p with
  | .error fault => .error (.unreadable fault)
  | .ok content =>
    if p.extension?.any fun e => otherNotations.contains (Text.toLower e) then .error .otherNotation
    else
      match Utf8.decode content with
      | none => .error (.unreadable .notText)
      | some t => Layer.ofDocument t

/-- A file that was looked at in vain. -/
structure FailedFile where
  path : Text
  problem : FileProblem
  deriving Repr, DecidableEq

/-- The outcome of the search for a file: its settings, and the files that are reported. -/
structure Found where
  layer : Layer := {}
  failed : List FailedFile := []
  deriving Repr, DecidableEq

/-- Looks at the candidates in order. `optional` holds the files so far that count only if nothing
loads, the newest first. -/
def search (s : Surroundings) (optional : List FailedFile) : List Candidate → Found
  | [] => { failed := optional.reverse }
  | c :: later =>
    match loadFile s c.path with
    | .ok layer => { layer }
    | .error problem =>
      if c.required then
        let rest := search s optional later
        { rest with failed := ⟨c.path, problem⟩ :: rest.failed }
      else if problem = .unreadable .missing then search s optional later
      else search s (⟨c.path, problem⟩ :: optional) later

/-! ### Layers -/

/-- Why settings cannot be loaded. -/
inductive LoadFault where
  | arguments (stop : Options.Stop)
  | file (failed : FailedFile)
  /-- A value does not fit its setting. -/
  | merge
  deriving Repr, DecidableEq

/-- What the arguments give, and their fault if they are refused. -/
def readArguments (arguments : List Bytes) : Given × List LoadFault :=
  match Given.parse (arguments.drop 1) with
  | .ok given => (given, [])
  | .error stop => ({}, [.arguments stop])

/-- The layers, laid over each other. -/
def merged (s : Surroundings) (file : Layer) (given : Given) : Layer :=
  (((Layer.ofSettings standard).overlay file).overlay (Environment.layer s.environment)).overlay given.layer

/-- Loads the settings; the first argument is the name of the program. -/
def load (s : Surroundings) (arguments : List Bytes) : Except (List LoadFault) Settings :=
  let (given, argumentFaults) := readArguments arguments
  let found := search s [] (s.candidates given.configPath)
  let faults := argumentFaults ++ found.failed.map .file
  match (merged s found.layer given).settings? with
  | none => .error (faults ++ [.merge])
  | some settings => if faults.isEmpty then .ok settings else .error faults

end Offside.Settings
