import Offside.Files.Path
import Offside.Options.Grammar

/-!
# Invocations

What the arguments of the command ask for: a source to convert and where the result goes, or the help
text, or the version.
-/

namespace Offside.Command

/-- A source and a destination, as they were named; none stands for the standard streams. -/
structure Invocation where
  input : Option Text := none
  output : Option Text := none
  deriving Repr, DecidableEq

namespace Invocation

/-- The name that stands for a standard stream. -/
def standardStream : Text := ['-']

/-- The file to read, if it is not the standard input. -/
def inputPath? (i : Invocation) : Option Text := i.input.filter (· != standardStream)

/-- The file to write, if it is not the standard output. -/
def outputPath? (i : Invocation) : Option Text := i.output.filter (· != standardStream)

/-- How messages write the option for the output. -/
def outputShown : String := "--output <OUTPUT>"

/-- The options and the operand of the command. -/
def grammar : Options.Grammar Invocation where
  rules := [
    { long := "output", short := some 'o', shown := outputShown
      action := .take (Options.once outputShown Invocation.output
        (fun t i => { i with output := some t }) Options.asText) },
    { long := "help", short := some 'h', shown := "--help", action := .ask .help },
    { long := "version", short := some 'V', shown := "--version", action := .ask .version }]
  operands := [Options.once "[INPUT]" Invocation.input
    (fun t i => { i with input := some t }) Options.asText]

/-- Reads the arguments; the first is the name of the program. -/
def parse (arguments : List Bytes) : Except Options.Stop Invocation :=
  grammar.parse {} (arguments.drop 1)

end Invocation

/-- The name under which the program was called: the file name of its first argument. -/
def programName (arguments : List Bytes) : Text :=
  let called := (arguments.head?.bind Utf8.decode).bind fun t => (Path.ofText t).name?
  called.getD "bython".toList

/-- How the command is called. -/
def usage (arguments : List Bytes) : Text :=
  "Usage: ".toList ++ Text.visible (programName arguments) ++ " [OPTIONS] [INPUT]\n".toList

/-- The help text. -/
def helpText (arguments : List Bytes) : Text :=
  "Transcodes brace-style Python into indentation-style Python\n\n".toList ++
  usage arguments ++
  ("\nArguments:\n" ++
    "  [INPUT]  Source file to transcode; `-` or no value reads standard input\n" ++
    "\nOptions:\n" ++
    "  -o, --output <OUTPUT>  Destination file; standard output when omitted\n" ++
    "  -h, --help             Print help\n" ++
    "  -V, --version          Print version\n").toList

/-- The version text. -/
def versionText : Text := "bython 0.1.0\n".toList

end Offside.Command
