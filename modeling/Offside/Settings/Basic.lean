import Offside.Layout.Width
import Offside.Text.Basic

/-!
# Settings

What can be set from outside: the width of a level, which events are written down, and how.
-/

namespace Offside

/-- How events are written down. -/
inductive LogFormat where
  | json
  | compact
  deriving Repr, DecidableEq

namespace LogFormat

/-- The name of a log format. -/
def name : LogFormat → String
  | json => "json"
  | compact => "compact"

/-- The format with exactly this name. -/
def ofName? (t : Text) : Option LogFormat :=
  [json, compact].find? fun f => f.name.toList == t

/-- The format with this name, in any case of its letters. -/
def parse? (t : Text) : Option LogFormat := ofName? (Text.toLower t)

/-- What is said when no format has the name. -/
def unknown : String := "Matching variant not found"

end LogFormat

/-- What can be set from outside. -/
structure Settings where
  indentSize : Nat := 4
  logFilter : Text := ['i', 'n', 'f', 'o']
  logFormat : LogFormat := .json
  deriving Repr, DecidableEq

namespace Settings

/-- The settings when nothing is set. -/
def standard : Settings := {}

/-- The width of a level; the size may be zero until it is needed. -/
def width (s : Settings) : Except Width.Fault Width := Width.ofNat s.indentSize

end Settings

end Offside
