import Offside.Options.Grammar
import Offside.Settings.Number
import Offside.Settings.Value

/-!
# Settings from arguments

The options that give settings, and the one that names a file with settings. That options which only
repeat the standard settings count for nothing is a rule of the library that loads the settings, and not
of the command.
-/

namespace Offside.Settings

/-- What the arguments give. -/
structure Given where
  indentSize : Option Nat := none
  logFilter : Option Text := none
  logFormat : Option LogFormat := none
  /-- The path of a file with settings. -/
  configPath : Option Bytes := none
  deriving Repr, DecidableEq

namespace Given

def indentSizeShown : String := "--indent-size <INDENT_SIZE>"

def logFilterShown : String := "--log-filter <LOG_FILTER>"

def logFormatShown : String := "--log-format <LOG_FORMAT>"

def configPathShown : String := "--config-path <PATH>"

/-- Reads the number of columns of a level. -/
def readSize (value : Bytes) : Except Options.Fault Nat := do
  let t ← Options.asText value
  match Number.natural? t with
  | some n => return n
  | none => throw (.badValue t indentSizeShown)

/-- Reads a log format by its name, in any case of the letters. -/
def readFormat (value : Bytes) : Except Options.Fault LogFormat := do
  let t ← Options.asText value
  match LogFormat.parse? t with
  | some f => return f
  | none => throw (.badValue t logFormatShown)

/-- Reads a path, which need not be text and may not be empty. -/
def readPath (value : Bytes) : Except Options.Fault Bytes :=
  if value.isEmpty then .error (.missingValue configPathShown) else .ok value

/-- The options that give settings. -/
def grammar : Options.Grammar Given where
  rules := [
    { long := "indent-size", short := some 'i', shown := indentSizeShown
      action := .take (Options.once indentSizeShown Given.indentSize
        (fun n g => { g with indentSize := some n }) readSize) },
    { long := "log-filter", short := some 'l', shown := logFilterShown
      action := .take (Options.once logFilterShown Given.logFilter
        (fun t g => { g with logFilter := some t }) Options.asText) },
    { long := "log-format", short := some 'L', shown := logFormatShown
      action := .take (Options.once logFormatShown Given.logFormat
        (fun f g => { g with logFormat := some f }) readFormat) },
    { long := "config-path", shown := configPathShown
      action := .take (Options.once configPathShown Given.configPath
        (fun p g => { g with configPath := some p }) readPath) },
    { long := "help", short := some 'h', shown := "--help", action := .ask .help }]

/-- Reads the arguments after the program name. -/
def parse (arguments : List Bytes) : Except Options.Stop Given := grammar.parse {} arguments

/-- Whether the arguments only repeat what holds without them. -/
def isStandard (g : Given) : Bool :=
  g == { indentSize := some standard.indentSize
         logFilter := some standard.logFilter
         logFormat := some standard.logFormat }

/-- What the arguments give. Arguments that repeat all three standard settings, and name no file,
count as no arguments. -/
def layer (g : Given) : Layer :=
  if g.isStandard then {}
  else
    { indentSize := g.indentSize.map fun n => .integer n
      logFilter := g.logFilter.map .text
      logFormat := g.logFormat.map fun f => .text f.name.toList }

end Given

end Offside.Settings
