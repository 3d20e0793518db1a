import Offside.Proofs.Trim
import Offside.Brace.Balance
import Offside.Layout.Width

/-!
# Programs of nested blocks

A program is a list of nodes: statements, comments, blanks, and blocks that hold nodes again. It can be
written in two ways. `Program.indented` writes it with colons and indentation; there is one such text for
each width of a level. With braces there are many: a program is read off as a sequence of `Mark`s, and a
`Line` carries some of them, so that closing braces may share a line with each other and with the start
of what follows. `Program.Prints p lines` says that the lines carry the marks of `p`, in order.

Statements, comments and headers are texts that mean the same wherever they stand on a line. What this
takes is part of their types.
-/

namespace Offside.Program

open Text Brace

/-- A statement that is complete on its line and opens no block. -/
structure Statement where
  text : Text
  nonempty : text ≠ [] := by decide
  trimmed : trim text = text := by decide
  notComment : Keyword.isComment text = false := by decide
  notCloser : text.head? ≠ some '}' := by decide
  noTerminator : text.getLast? ≠ some Keyword.terminator := by decide
  noBlock : structuralAt? text = none := by decide
  noLiteral : openLiteralAt? text = none := by decide
  noColonHeader : ¬ (Keyword.isHeader text = true ∧ text.getLast? = some ':') := by decide

/-- A comment on a line of its own. -/
structure Comment where
  text : Text
  trimmed : trim text = text := by decide
  marked : Keyword.isComment text = true := by decide

/-- The header of a block, without brace and colon. -/
structure Header where
  text : Text
  trimmed : trim text = text := by decide
  isHeader : Keyword.isHeader text = true := by decide
  notComment : Keyword.isComment text = false := by decide
  notCloser : text.head? ≠ some '}' := by decide

/-- A piece of a program. -/
inductive Node where
  | statement (s : Statement)
  | comment (c : Comment)
  | blank
  | block (h : Header) (body : List Node)

/-! ### With colons and indentation -/

mutual

/-- A node, inside `depth` blocks. -/
def Node.indented (w : Width) (depth : Nat) : Node → List Text
  | .statement s => [w.indent depth ++ s.text]
  | .comment c => [w.indent depth ++ c.text]
  | .blank => [[]]
  | .block h body => (w.indent depth ++ h.text ++ [':']) :: indented w (depth + 1) body

/-- Nodes one after the other, inside `depth` blocks. -/
def indented (w : Width) (depth : Nat) : List Node → List Text
  | [] => []
  | node :: nodes => node.indented w depth ++ indented w depth nodes

end

/-! ### With braces -/

/-- What a program consists of when it is read from its first line to its last. -/
inductive Mark where
  | statement (s : Statement)
  | comment (c : Comment)
  | blank
  | opening (h : Header)
  | closing

mutual

/-- The marks of a node. -/
def Node.marks : Node → List Mark
  | .statement s => [.statement s]
  | .comment c => [.comment c]
  | .blank => [.blank]
  | .block h body => .opening h :: (marks body ++ [.closing])

/-- The marks of nodes one after the other. -/
def marks : List Node → List Mark
  | [] => []
  | node :: nodes => node.marks ++ marks nodes

end

/-- Blanks around what stands on a line. -/
abbrev Pad := { t : Text // Blank t }

/-- Closing braces, each with the blanks after it. -/
def closers (gaps : List Pad) : Text := gaps.flatMap fun gap => '}' :: gap.val

/-- A terminator, or none. -/
def terminators (terminated : Bool) : Text := if terminated then [Keyword.terminator] else []

/-- A line of a program that is written with braces. -/
inductive Line where
  /-- Nothing but blanks. -/
  | blank (pad : Pad)
  | comment (lead : Pad) (c : Comment) (trail : Pad)
  /-- One closing brace more than there are gaps. -/
  | closing (lead : Pad) (gaps : List Pad) (terminated : Bool) (trail : Pad)
  /-- A statement, after as many closing braces as there are gaps. -/
  | statement (lead : Pad) (gaps : List Pad) (s : Statement) (terminated : Bool) (trail : Pad)
  /-- A header and its brace, after as many closing braces as there are gaps. The brace is the first
  structural one, and no data literal is open before it. -/
  | opening (lead : Pad) (gaps : List Pad) (h : Header) (gap trail : Pad)
    (first : structuralAt? (h.text ++ gap.val ++ ['{']) = some (h.text ++ gap.val).length)
    (noLiteral : openLiteralAt? (h.text ++ gap.val ++ ['{']) = none)

namespace Line

/-- What stands between the blanks at the ends of a line. -/
def inner : Line → Text
  | blank _ => []
  | comment _ c _ => c.text
  | closing _ gaps terminated _ => closers gaps ++ ('}' :: terminators terminated)
  | statement _ gaps s terminated _ => closers gaps ++ (s.text ++ terminators terminated)
  | opening _ gaps h gap _ _ _ => closers gaps ++ (h.text ++ gap.val ++ ['{'])

/-- The blanks before and after what stands on a line. -/
def pads : Line → Pad × Pad
  | blank pad => (pad, ⟨[], blank_nil⟩)
  | comment lead _ trail => (lead, trail)
  | closing lead _ _ trail => (lead, trail)
  | statement lead _ _ _ trail => (lead, trail)
  | opening lead _ _ _ trail _ _ => (lead, trail)

/-- The text of a line. -/
def text (line : Line) : Text := line.pads.1.val ++ line.inner ++ line.pads.2.val

/-- The marks that a line carries. -/
def marks : Line → List Mark
  | blank _ => [.blank]
  | comment _ c _ => [.comment c]
  | closing _ gaps _ _ => List.replicate (gaps.length + 1) .closing
  | statement _ gaps s _ _ => List.replicate gaps.length .closing ++ [.statement s]
  | opening _ gaps h _ _ _ _ => List.replicate gaps.length .closing ++ [.opening h]

end Line

/-- The lines write the program with braces. -/
def Prints (program : List Node) (lines : List Line) : Prop :=
  lines.flatMap Line.marks = marks program

end Offside.Program
