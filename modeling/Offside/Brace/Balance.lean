import Offside.Brace.Scan

/-!
# The braces of a line taken together

What the layout of a line depends on: the first structural brace, the data literal that the line
leaves open, and the depth by which the line changes the nesting. Positions count characters.
-/

namespace Offside.Brace

/-- Position of the first structural brace. -/
def structuralAt? (line : Text) : Option Nat :=
  (roles line).findIdx? (· == some .structural)

/-- The outermost data literal that stays open, over the roles from position `pos` on. The state is
the position of the literal that is open and the number of braces open inside it. -/
def openLiteral (pos : Nat) : Option (Nat × Nat) → List (Option Role) → Option Nat
  | state, [] => state.map Prod.fst
  | none, some .dataLiteral :: more => openLiteral (pos + 1) (some (pos, 0)) more
  | some (start, depth), some .dataLiteral :: more =>
    openLiteral (pos + 1) (some (start, depth + 1)) more
  | some (_, 0), some .closing :: more => openLiteral (pos + 1) none more
  | some (start, depth + 1), some .closing :: more =>
    openLiteral (pos + 1) (some (start, depth)) more
  | state, _ :: more => openLiteral (pos + 1) state more

/-- Position of the data literal that the line opens and does not close. -/
def openLiteralAt? (line : Text) : Option Nat := openLiteral 0 none (roles line)

/-- Opening braces less closing braces among some roles. -/
def depthOf : List (Option Role) → Int
  | [] => 0
  | r :: rs => r.elim 0 Role.weight + depthOf rs

/-- Opening braces less closing braces; inert ones do not count. -/
def netDepth (line : Text) : Int := depthOf (roles line)

/-- Whether the line is the start of a data literal: one stays open, and no structural brace comes
before it. -/
def startsLiteral (line : Text) : Bool :=
  match openLiteralAt? line, structuralAt? line with
  | none, _ => false
  | some _, none => true
  | some literal, some brace => literal < brace

@[simp] theorem depthOf_nil : depthOf [] = 0 := rfl

@[simp] theorem depthOf_cons (r : Option Role) (rs : List (Option Role)) :
    depthOf (r :: rs) = r.elim 0 Role.weight + depthOf rs := rfl

theorem depthOf_append (rs ss : List (Option Role)) :
    depthOf (rs ++ ss) = depthOf rs + depthOf ss := by
  induction rs with
  | nil => simp
  | cons r rs ih => simp [ih, Int.add_assoc]

end Offside.Brace
