import Offside.Text.Basic

/-!
# Text without terminal control

What is quoted in a message must not steer the terminal it is written to. `visible` leaves out control
characters, except the blank ones, and whole control sequences: those that start with an escape
character and a bracket, and the strings that are meant for the terminal itself.
-/

namespace Offside.Text

/-- Where in a control sequence a character stands. -/
inductive Stage where
  /-- Outside of control sequences. -/
  | ground
  /-- Right after an escape character. -/
  | escape
  /-- After an escape character and further characters, before the one that ends them. -/
  | intermediate
  /-- After an escape character and an opening bracket. -/
  | sequence
  /-- In a command for the terminal, which the bell ends. -/
  | command
  /-- In another string for the terminal, which only an escape character ends. -/
  | message
  deriving Repr, DecidableEq

/-- Control characters that are shown: those that are blank. -/
def isBlankControl (c : Char) : Bool := c == '\t' || c == '\n' || c == '\x0c' || c == '\r'

/-- Where the character after an escape character leads. -/
def Stage.afterEscape (c : Char) : Stage :=
  if c == '[' then .sequence
  else if c == ']' then .command
  else if c == 'P' || c == 'X' || c == '^' || c == '_' then .message
  else if c.toNat < 0x30 then .intermediate
  else .ground

/-- Whether a character is shown, and the stage after it. -/
def Stage.step (s : Stage) (c : Char) : Bool × Stage :=
  if c == '\x18' || c == '\x1a' then (false, .ground)
  else if c == '\x1b' then (false, .escape)
  else
    match s with
    | .ground => (isBlankControl c || (0x20 ≤ c.toNat && c.toNat != 0x7f), .ground)
    | .command => (false, if c == '\x07' then .ground else .command)
    | .message => (false, .message)
    | .escape | .intermediate | .sequence =>
      if isBlankControl c || 0x80 ≤ c.toNat then (true, .ground)
      else if c.toNat < 0x20 || c.toNat == 0x7f then (false, s)
      else if s == .escape then (false, .afterEscape c)
      else if s == .intermediate then (false, if c.toNat < 0x30 then .intermediate else .ground)
      else (false, if c.toNat < 0x40 then .sequence else .ground)

/-- The characters that are shown from a stage on. -/
def visibleFrom : Stage → Text → Text
  | _, [] => []
  | s, c :: rest =>
    let (shown, next) := s.step c
    if shown then c :: visibleFrom next rest else visibleFrom next rest

/-- The text without control characters and control sequences. -/
def visible (t : Text) : Text := visibleFrom .ground t

end Offside.Text
