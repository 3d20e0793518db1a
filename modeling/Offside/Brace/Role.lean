import Offside.Text.Basic

/-!
# What a brace does on its line

Every brace of a line has one of four roles. Only the braces that are not `inert` count towards
nesting, and `Role.weight` says how.
-/

namespace Offside

/-- What a brace does on its line. -/
inductive Role where
  /-- An opening brace that may start a block of statements. -/
  | structural
  /-- An opening brace of a dict, a set or a comprehension. -/
  | dataLiteral
  /-- A closing brace outside strings. -/
  | closing
  /-- A brace inside a string or inside a field of an f-string. -/
  | inert
  deriving Repr, DecidableEq

/-- Whether a character is one of the two braces. -/
def isBrace (c : Char) : Bool := c == '{' || c == '}'

namespace Role

/-- How a brace changes the depth of its line. -/
def weight : Role → Int
  | structural => 1
  | dataLiteral => 1
  | closing => -1
  | inert => 0

end Role

/-- A brace of a line: where it starts, in UTF-8 bytes, and its role. -/
structure Tag where
  index : Nat
  role : Role
  deriving Repr, DecidableEq

end Offside
