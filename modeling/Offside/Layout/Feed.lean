import Offside.Event
import Offside.Layout.Nesting
import Offside.Layout.OutLine

/-!
# Laying out a line

`Layout.feed` takes the nesting so far and one line of source, and gives the lines to be written, the
nesting after it and what there is to tell. It first peels the closing braces at the front of the
line that end open blocks, and then places what is left of the line.

The layout never looks at the width of a level.
-/

namespace Offside.Layout

/-- What comes of one line of source. -/
structure Placement where
  nesting : Nesting
  lines : List OutLine := []
  events : List Event := []
  deriving Repr, DecidableEq

/-- What is left of a line after its leading closing braces. -/
structure Peeled where
  /-- How many blocks were ended. -/
  closed : Nat
  /-- The rest of the line, if there is any. -/
  rest : Option Text
  deriving Repr, DecidableEq

/-- The rest of a line after a closing brace: trimmed, and without a terminator. -/
def afterBrace (text : Text) : Text := Text.trimEnd (Keyword.stripTerminator (Text.trim text))

/-- Peels closing braces off the front of a line, as long as there are blocks to end. -/
def peel : Nat → Text → Peeled
  | 0, raw => ⟨0, some raw⟩
  | blocks + 1, raw =>
    match Text.trim raw with
    | '}' :: text =>
      if (afterBrace text).isEmpty then ⟨1, none⟩
      else
        let more := peel blocks (afterBrace text)
        ⟨more.closed + 1, more.rest⟩
    | _ => ⟨0, some raw⟩

/-- A statement at the present level. -/
def statement (n : Nesting) (text : Text) : OutLine :=
  .plain n.level (Keyword.stripTerminator text)

/-- A header with the colon that ends it. -/
def withColon (head : Text) : Text := if head.getLast? = some ':' then head else head ++ [':']

/-- The body that a block has on the line of its header. -/
inductive Body where
  /-- No body on this line: the block stays open. -/
  | later
  /-- A body, and the block stays open after it. -/
  | started (text : Text)
  /-- A body, and the block ends with it. -/
  | whole (text : Text)
  deriving Repr, DecidableEq

/-- What the trimmed text after a block's opening brace means. An empty block does nothing; a body is
whole if the last character closes one brace more than the body opens. -/
def Body.ofTail (tail : Text) : Body :=
  if tail = ['}'] then .whole ['p', 'a', 's', 's']
  else if tail = [] then .later
  else if tail.getLast? = some '}' ∧ Brace.netDepth tail < 0 then
    .whole (Keyword.stripTerminator (Text.trimEnd tail.dropLast))
  else .started (Keyword.stripTerminator tail)

/-- Places a trimmed line whose first structural brace stands at `brace`. -/
def placeBlock (n : Nesting) (text : Text) (brace : Nat) : Placement :=
  let head := Text.trim (text.take brace)
  if Keyword.isHeader head then
    let header := OutLine.header n.level (withColon head)
    let inner := n.openBlock
    match Body.ofTail (Text.trim (text.drop (brace + 1))) with
    | .later => { nesting := inner, lines := [header] }
    | .started body => { nesting := inner, lines := [header, .plain inner.level body] }
    | .whole body => { nesting := inner.closeBlocks 1, lines := [header, .plain inner.level body] }
  else { nesting := n, lines := [statement n text] }

/-- Places a line, or what was left of it, whose leading closing brace ends no block. -/
def place (n : Nesting) (raw : Text) : Placement :=
  let text := Text.trim raw
  if text.isEmpty then { nesting := n, lines := [.blank] }
  else if Keyword.isComment text then { nesting := n, lines := [.plain n.level text] }
  else if n.inLiteral then
    { nesting := n.adjustLiteral (Brace.netDepth text)
      lines := [.continuation (Text.indentation raw - n.literalBase)
        (Keyword.stripTerminator text)] }
  else if text.head? = some '}' then
    { nesting := n, lines := [statement n text], events := [.strayBrace text] }
  else if Brace.startsLiteral text then
    let after := n.enterLiteral (Text.indentation raw) (Brace.netDepth text)
    { nesting := after, lines := [statement n text], events := [.literalEntered after.literalDepth] }
  else
    match Brace.structuralAt? text with
    | some brace => placeBlock n text brace
    | none => { nesting := n, lines := [statement n text] }

/-- Lays out one line of source. Inside a data literal closing braces end no block. -/
def feed (n : Nesting) (raw : Text) : Placement :=
  if n.inLiteral then place n raw
  else
    let peeled := peel n.openBlocks raw
    match peeled.rest with
    | none => { nesting := n.closeBlocks peeled.closed }
    | some rest => place (n.closeBlocks peeled.closed) rest

end Offside.Layout
