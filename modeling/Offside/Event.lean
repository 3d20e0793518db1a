import Offside.Style.Basic

/-!
# Events

What a run tells about itself. Every event has a severity, the part of the program it comes from, a
message and named values; how and whether it is written down is decided elsewhere.
-/

namespace Offside

/-- How important an event is. -/
inductive Severity where
  | error
  | warn
  | info
  | debug
  | trace
  deriving Repr, DecidableEq

namespace Severity

/-- The more detailed, the greater. -/
def detail : Severity → Nat
  | error => 1
  | warn => 2
  | info => 3
  | debug => 4
  | trace => 5

/-- The name of a severity. -/
def name : Severity → String
  | error => "ERROR"
  | warn => "WARN"
  | info => "INFO"
  | debug => "DEBUG"
  | trace => "TRACE"

end Severity

/-- A value that an event carries. -/
inductive EventValue where
  | number (n : Nat)
  /-- A label, written as it is. -/
  | label (t : Text)
  /-- A piece of source, written between quotes. -/
  | source (t : Text)
  deriving Repr, DecidableEq

/-- What a run tells about itself. -/
inductive Event where
  /-- A line started a data literal; `depth` braces of it are open after the line. -/
  | literalEntered (depth : Nat)
  /-- A line started with a closing brace, and no block was open. -/
  | strayBrace (line : Text)
  /-- The first line that shows a style settled it. -/
  | styleEstablished (sighting : Sighting)
  /-- A whole source was converted. -/
  | converted (linesIn linesOut openBlocks : Nat)
  | readingFile (path : Text)
  | readingInput
  | fileWritten (path : Text) (bytes : Nat)
  deriving Repr, DecidableEq

namespace Event

/-- How much an event matters. -/
def severity : Event → Severity
  | literalEntered _ => .trace
  | strayBrace _ => .warn
  | styleEstablished _ => .debug
  | converted .. => .debug
  | readingFile _ => .debug
  | readingInput => .debug
  | fileWritten .. => .debug

/-- The part of the program an event comes from. -/
def target : Event → String
  | readingFile _ | readingInput | fileWritten .. => "bython_cli"
  | _ => "bython_syntax"

/-- What an event says. -/
def message : Event → String
  | literalEntered _ => "entered multi-line data literal"
  | strayBrace _ => "closing brace without an open block"
  | styleEstablished _ => "block style established"
  | converted .. => "transcoded source"
  | readingFile _ => "reading source file"
  | readingInput => "reading source from stdin"
  | fileWritten .. => "wrote output file"

/-- The named values of an event, in the order in which they are written. -/
def fields : Event → List (String × EventValue)
  | literalEntered depth => [("depth", .number depth)]
  | strayBrace line => [("line", .source line)]
  | styleEstablished s => [("style", .label s.style.describe.toList), ("line", .number s.line)]
  | converted linesIn linesOut openBlocks =>
    [("lines_in", .number linesIn), ("lines_out", .number linesOut),
      ("open_blocks", .number openBlocks)]
  | readingFile path => [("path", .label path)]
  | readingInput => []
  | fileWritten path bytes => [("path", .label path), ("bytes", .number bytes)]

end Event

end Offside
