import Offside.Text.Basic
import Offside.Layout.Width

/-!
# Lines to be written

A line of output before it is indented. The width of a level is not known yet: it enters only in
`OutLine.render`.
-/

namespace Offside

/-- A line of output before it is indented. -/
inductive OutLine where
  | blank
  /-- The header of a block, with its colon. -/
  | header (level : Nat) (text : Text)
  /-- A statement or a comment. -/
  | plain (level : Nat) (text : Text)
  /-- A line inside a data literal, so many columns to the right of the literal's first line. -/
  | continuation (columns : Nat) (text : Text)
  deriving Repr, DecidableEq

namespace OutLine

/-- The text of a line without its indentation. -/
def text : OutLine → Text
  | blank => []
  | header _ t => t
  | plain _ t => t
  | continuation _ t => t

/-- The level at which a line is written, for a given width. -/
def levelAt (w : Width) : OutLine → Nat
  | blank => 0
  | header level _ => level
  | plain level _ => level
  | continuation columns _ => w.levels columns

/-- The line as it is written. -/
def render (w : Width) (line : OutLine) : Text := w.indent (line.levelAt w) ++ line.text

@[simp] theorem render_blank (w : Width) : render w blank = [] := by
  simp [render, levelAt, text]

end OutLine

end Offside
