/-!
# The width of one indentation level

A width is a positive number of spaces, and every positive number is a width. That the spaces of one
level have to fit into memory is not a part of this: a width for which they do not would end the program
before its first line.
-/

namespace Offside

/-- The spaces of one indentation level. -/
structure Width where
  spaces : Nat
  pos : 0 < spaces
  deriving DecidableEq

namespace Width

/-- What is wrong with a width. -/
inductive Fault where
  | zero
  deriving Repr, DecidableEq

/-- What is said about a width that is refused. -/
def Fault.message : Fault → String
  | zero => "indent width must be a positive integer"

/-- Every number but zero is a width. -/
def ofNat (n : Nat) : Except Fault Width :=
  if h : 0 < n then .ok ⟨n, h⟩ else .error .zero

/-- Four spaces. -/
def standard : Width := ⟨4, by decide⟩

instance : Inhabited Width := ⟨standard⟩

/-- The blanks before a line at a level. -/
def indent (w : Width) (level : Nat) : List Char := List.replicate (level * w.spaces) ' '

/-- How many levels a line inside a literal stands to the right of the line that opened it: whole
levels, and at least one as soon as it stands to the right at all. -/
def levels (w : Width) (columns : Nat) : Nat :=
  if columns = 0 then 0 else max 1 (columns / w.spaces)

@[simp] theorem indent_zero (w : Width) : w.indent 0 = [] := by simp [indent]

end Width

end Offside
