/-!
# Nesting

What is carried from one line of a source to the next: how deep the lines written so far stand, how
many blocks are open, and, inside a data literal that runs over several lines, how many of its braces
are open and at which column its first line stood. `level` and `openBlocks` move together, and
`literalBase` is 0 outside literals.
-/

namespace Offside

/-- What is carried from one line of a source to the next. -/
structure Nesting where
  level : Nat := 0
  openBlocks : Nat := 0
  literalDepth : Nat := 0
  literalBase : Nat := 0
  deriving Repr, DecidableEq

namespace Nesting

/-- Whether a data literal is open. -/
def inLiteral (n : Nesting) : Bool := 0 < n.literalDepth

/-- One more block is open. -/
def openBlock (n : Nesting) : Nesting :=
  { n with level := n.level + 1, openBlocks := n.openBlocks + 1 }

/-- Ends `k` blocks. -/
def closeBlocks (n : Nesting) (k : Nat) : Nesting :=
  { n with level := n.level - k, openBlocks := n.openBlocks - k }

/-- Changes the number of open literal braces; when none is left the literal is over. -/
def adjustLiteral (n : Nesting) (delta : Int) : Nesting :=
  let depth := (n.literalDepth + delta).toNat
  { n with literalDepth := depth, literalBase := if depth = 0 then 0 else n.literalBase }

/-- Starts a data literal with `depth` open braces on a line at column `base`. -/
def enterLiteral (n : Nesting) (base : Nat) (depth : Int) : Nesting :=
  { n with literalDepth := 0, literalBase := base }.adjustLiteral depth

@[simp] theorem closeBlocks_zero (n : Nesting) : n.closeBlocks 0 = n := rfl

@[simp] theorem closeBlocks_openBlock (n : Nesting) : n.openBlock.closeBlocks 1 = n := rfl

theorem closeBlocks_closeBlocks (n : Nesting) (j k : Nat) :
    (n.closeBlocks j).closeBlocks k = n.closeBlocks (j + k) := by
  simp [closeBlocks, Nat.sub_sub]

end Nesting

end Offside
