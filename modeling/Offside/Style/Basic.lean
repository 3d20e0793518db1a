import Offside.Brace.Balance
import Offside.Keyword

/-!
# Block styles

A source writes its blocks with braces or with colons. A line is evidence for one of the two styles
or for none, and a `Contradiction` names two lines with different evidence.
-/

namespace Offside

/-- How blocks are written. -/
inductive Style where
  | brace
  | colon
  deriving Repr, DecidableEq

namespace Style

/-- How messages call a style. -/
def describe : Style → String
  | brace => "brace-style block"
  | colon => "colon-style block"

/-- The style that a trimmed line shows: a structural brace, or a header that ends in a colon.
Blank lines and comments show none. -/
def ofTrimmed? (text : Text) : Option Style :=
  if text.isEmpty || Keyword.isComment text then none
  else if (Brace.structuralAt? text).isSome then some brace
  else if Keyword.isHeader text && text.getLast? == some ':' then some colon
  else none

/-- The style that a line shows. -/
def evidence? (line : Text) : Option Style := ofTrimmed? (Text.trim line)

end Style

/-- A style and the number of a line that shows it. -/
structure Sighting where
  style : Style
  line : Nat
  deriving Repr, DecidableEq

/-- Two lines that do not go together: the one `found` and the one that `established` the style. -/
structure Contradiction where
  found : Sighting
  established : Sighting
  deriving Repr, DecidableEq

/-- The wording of a contradiction. -/
def Contradiction.message (c : Contradiction) : String :=
  s!"mixed syntax detected: {c.found.style.describe} found at line {c.found.line}, " ++
    s!"but {c.established.style.describe} was established at line {c.established.line}"

end Offside
