import Offside.Layout.Feed
import Offside.Source
import Offside.Style.Check

/-!
# Converting a source

A `Converter` turns whole sources from braces to indentation. Every line is shown to the checks and
then laid out; nothing comes out unless every line passes. Each run starts afresh, whatever the runs
before it left behind.
-/

namespace Offside

/-- Converts sources, one after the other. -/
structure Converter where
  width : Width
  checks : List Check := Check.standard
  nesting : Nesting := {}

/-- Why a source was not converted. -/
inductive ConversionFault where
  | mixed (contradiction : Contradiction)
  | unreadable (fault : ReadFault)
  deriving Repr, DecidableEq

namespace ConversionFault

/-- What is said about a source that was not converted. -/
def message : ConversionFault → String
  | mixed contradiction => contradiction.message
  | unreadable fault => "failed to read source: " ++ fault.message

/-- The number of the line at fault, where there is one. -/
def line? : ConversionFault → Option Nat
  | mixed contradiction => some contradiction.found.line
  | unreadable _ => none

end ConversionFault

/-- What comes of a run: the converter after it, the result and what there is to tell. -/
structure Run (α : Type) where
  converter : Converter
  result : Except ConversionFault α
  events : List Event := []

namespace Converter

/-- The converter as it is before a run. -/
def reset (c : Converter) : Converter :=
  { c with checks := c.checks.map Check.reset, nesting := {} }

/-- Runs over lines, the first of which has the number given. -/
def feed (c : Converter) (number : Nat) : List Text → Run (List OutLine)
  | [] => { converter := c, result := .ok [] }
  | line :: later =>
    let checked := Check.all c.checks line number
    match checked.objection with
    | some objection =>
      { converter := { c with checks := checked.checks }
        result := .error (.mixed objection)
        events := checked.events }
    | none =>
      let placed := Layout.feed c.nesting line
      let rest := feed { c with checks := checked.checks, nesting := placed.nesting } (number + 1) later
      { converter := rest.converter
        result := rest.result.map (placed.lines ++ ·)
        events := checked.events ++ placed.events ++ rest.events }

/-- Lines without an empty line at the front. -/
def dropLeadingBlank : List Text → List Text
  | [] :: lines => lines
  | lines => lines

/-- Converts the lines of a source. -/
def convertLines (c : Converter) (lines : List Text) : Run (List Text) :=
  let run := c.reset.feed 1 lines
  match run.result with
  | .error fault => { converter := run.converter, result := .error fault, events := run.events }
  | .ok out =>
    let written := dropLeadingBlank (out.map (OutLine.render c.width))
    { converter := run.converter
      result := .ok written
      events := run.events ++
        [.converted lines.length written.length run.converter.nesting.openBlocks] }

/-- A run whose lines are put together into one text. -/
def joined (run : Run (List Text)) : Run Text :=
  { converter := run.converter, result := run.result.map Lines.toText, events := run.events }

/-- Converts a text. -/
def convertText (c : Converter) (text : Text) : Run Text :=
  joined (c.convertLines (Lines.ofText text))

/-- Converts a source that has to be read. It is read to its end before the run starts. -/
def convertSource (c : Converter) (source : Source) : Run Text :=
  match source.read with
  | .error fault => { converter := c, result := .error (.unreadable fault) }
  | .ok lines => joined (c.convertLines lines)

end Converter

end Offside
