import Offside.Event

/-!
# Checks

Checks look at every line of a source before it is laid out. They form an ordered list; the first
one that objects ends the run, and the checks after it do not see the line.

The check on style keeps a verdict. The first line that shows a style settles it, and from then on every
line that shows the other style is a contradiction. A contradiction does not change the verdict.
-/

namespace Offside

/-- The style of a source and the line that settled it; none as long as no line shows one. -/
abbrev Verdict := Option Sighting

namespace Verdict

/-- The verdict after one more line, or what is wrong with the line. -/
def judge (v : Verdict) (line : Text) (number : Nat) : Except Contradiction Verdict :=
  match Style.evidence? line, v with
  | none, v => .ok v
  | some style, none => .ok (some ⟨style, number⟩)
  | some style, some established =>
    if style = established.style then .ok (some established)
    else .error ⟨⟨style, number⟩, established⟩

/-- What a line makes known: the verdict it settles. -/
def news (v : Verdict) (line : Text) (number : Nat) : List Event :=
  match Style.evidence? line, v with
  | some style, none => [.styleEstablished ⟨style, number⟩]
  | _, _ => []

end Verdict

/-- A check and what it remembers. -/
inductive Check where
  /-- The source keeps to one style. -/
  | style (verdict : Verdict)
  /-- No line holds the text. -/
  | forbid (needle : Text)
  deriving Repr, DecidableEq

/-- What the checks say about a line. -/
structure Checked where
  checks : List Check
  objection : Option Contradiction := none
  events : List Event := []
  deriving Repr, DecidableEq

namespace Check

/-- The check as it is before the first line. -/
def reset : Check → Check
  | style _ => style none
  | forbid needle => forbid needle

/-- The check after a line it accepts, or its objection. A forbidden text is reported as a brace that
contradicts a colon before the first line. -/
def judge (check : Check) (line : Text) (number : Nat) : Except Contradiction Check :=
  match check with
  | style v => (v.judge line number).map style
  | forbid needle =>
    if Text.occurs needle line then .error ⟨⟨.brace, number⟩, ⟨.colon, 0⟩⟩ else .ok check

/-- What the check makes known about a line. -/
def news (check : Check) (line : Text) (number : Nat) : List Event :=
  match check with
  | style v => v.news line number
  | forbid _ => []

/-- Shows a line to the checks in order, up to the first that objects. -/
def all : List Check → Text → Nat → Checked
  | [], _, _ => { checks := [] }
  | check :: later, line, number =>
    match check.judge line number with
    | .error objection =>
      { checks := check :: later, objection := some objection, events := check.news line number }
    | .ok check' =>
      let rest := all later line number
      { checks := check' :: rest.checks
        objection := rest.objection
        events := check.news line number ++ rest.events }

/-- The checks of a source when none are given: it keeps to one style. -/
def standard : List Check := [style none]

/-- How a list of checks is shown. -/
def describe (checks : List Check) : String := s!"StyleChecks \x7b checks: {checks.length} \x7d"

end Check

end Offside
