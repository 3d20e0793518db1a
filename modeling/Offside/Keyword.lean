import Offside.Text.Basic

/-!
# Words and marks of the language

A block is introduced by a header. A text is a header if it starts with a block keyword, together
with the space that belongs to it, if it is such a keyword alone, or if it names the program's entry
point.
-/

namespace Offside.Keyword

/-- The words that introduce a block, in the order in which they are tried. -/
def blockKeywords : List String :=
  ["if ", "elif ", "else", "while ", "for ", "def ", "class ", "try", "except", "finally", "with ",
    "async def ", "async for ", "async with ", "match ", "case "]

/-- Starts a comment. -/
def commentMark : Char := '#'

/-- Ends a statement. -/
def terminator : Char := ';'

/-- Marks the entry point of a program. -/
def entryPoint : String := "__main__"

/-- Whether a trimmed text introduces a block by this keyword. -/
def introduces (text keyword : Text) : Bool :=
  keyword.isPrefixOf text || text == Text.trimEnd keyword

/-- Whether a text introduces a block. -/
def isHeader (text : Text) : Bool :=
  blockKeywords.any (fun keyword => introduces (Text.trim text) keyword.toList) ||
    Text.occurs entryPoint.toList (Text.trim text)

/-- Whether a trimmed text is a comment. -/
def isComment (text : Text) : Bool := text.head? == some commentMark

/-- The text without one terminator at its end. -/
def stripTerminator (text : Text) : Text :=
  if text.getLast? = some terminator then text.dropLast else text

end Offside.Keyword
