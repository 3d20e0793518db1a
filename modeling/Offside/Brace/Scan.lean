import Offside.Brace.Role

/-!
# Reading the braces of a line

`roles` reads a line from left to right and gives, for every character, the role of the brace that
stands there, or none. Nothing is remembered from one line to the next.

* A quote that follows an even run of backslashes opens a string, or closes the one it opened.
* Inside a string every brace is inert.
* A string with an `f` among the letters before its quote is an f-string. There an opening brace that
  is closed again on the line starts a field; up to the matching brace quotes mean nothing and every
  brace is inert. An opening brace that is never closed is inert by itself.
* Elsewhere an opening brace is a data literal after `=`, `:`, `(`, `[`, `,` and `return`, and
  structural after anything else.
-/

namespace Offside.Brace

/-- Where the reading of a line stands. -/
inductive Mode where
  /-- Outside strings. -/
  | code
  /-- In a plain string opened by `quote`. -/
  | plain (quote : Char)
  /-- In an f-string opened by `quote`, between its fields. -/
  | template (quote : Char)
  /-- In a field of an f-string, inside `depth` further braces. -/
  | field (quote : Char) (depth : Nat)
  deriving Repr, DecidableEq

/-- A character is escaped by an odd run of backslashes. The text before it is given in reverse. -/
def escaped (before : Text) : Bool := (before.takeWhile (· == '\\')).length % 2 == 1

/-- Letters that may stand before the quote of a string. -/
def isMarkLetter (c : Char) : Bool := ['r', 'R', 'b', 'B', 'u', 'U', 'f', 'F'].contains c

/-- Characters that continue a name. -/
def isNameChar (c : Char) : Bool := c.isAlphanum || c == '_'

/-- The letters that mark the string which opens here: at most two. -/
def marks (before : Text) : Text := (before.take 2).takeWhile isMarkLetter

/-- Whether the quote that stands here opens an f-string: its marks hold an `f`, and they are not
the end of a name. -/
def opensTemplate (before : Text) : Bool :=
  (marks before).any (fun c => c == 'f' || c == 'F') &&
    !((before.drop (marks before).length).head?.any isNameChar)

/-- Whether the brace just opened is closed again, `depth` further ones being open. -/
def closes : Nat → Text → Bool
  | _, [] => false
  | depth, c :: rest =>
    if c = '{' then closes (depth + 1) rest
    else if c = '}' then
      match depth with
      | 0 => true
      | depth + 1 => closes depth rest
    else closes depth rest

/-- The endings after which an opening brace starts a data literal. -/
def literalLeads : List Text :=
  [['='], [':'], ['('], ['['], [','], ['r', 'e', 't', 'u', 'r', 'n']]

/-- The role of an opening brace outside strings. -/
def openingRole (before : Text) : Role :=
  if literalLeads.any (fun lead => lead.reverse.isPrefixOf (Text.trimStart before)) then
    .dataLiteral
  else .structural

/-- The role of the character `c` and the mode after it. -/
def step (before : Text) (mode : Mode) (c : Char) (rest : Text) : Option Role × Mode :=
  match mode with
  | .field q depth =>
    if c = '{' then (some .inert, .field q (depth + 1))
    else if c = '}' then
      match depth with
      | 0 => (some .inert, .template q)
      | depth + 1 => (some .inert, .field q depth)
    else (none, mode)
  | .code =>
    if c = '"' ∨ c = '\'' then
      if escaped before then (none, .code)
      else if opensTemplate before then (none, .template c)
      else (none, .plain c)
    else if c = '{' then (some (openingRole before), .code)
    else if c = '}' then (some .closing, .code)
    else (none, .code)
  | .plain q =>
    if c = q then (none, if escaped before then .plain q else .code)
    else if isBrace c then (some .inert, .plain q)
    else (none, .plain q)
  | .template q =>
    if c = q then (none, if escaped before then .template q else .code)
    else if c = '{' then (some .inert, if closes 0 rest then .field q 0 else .template q)
    else if c = '}' then (some .inert, .template q)
    else (none, .template q)

/-- Reads on from the text already read, given in reverse, and the mode reached. -/
def scan (before : Text) (mode : Mode) : Text → List (Option Role)
  | [] => []
  | c :: rest =>
    (step before mode c rest).1 :: scan (c :: before) (step before mode c rest).2 rest

/-- The role of every character of a line; none for what is no brace. -/
def roles (line : Text) : List (Option Role) := scan [] .code line

/-- The braces among the characters of a line, `offset` bytes into it. -/
def tagsFrom (offset : Nat) : Text → List (Option Role) → List Tag
  | c :: line, some role :: more => ⟨offset, role⟩ :: tagsFrom (offset + c.utf8Size) line more
  | c :: line, none :: more => tagsFrom (offset + c.utf8Size) line more
  | _, _ => []

/-- The braces of a line, in order. -/
def tags (line : Text) : List Tag := tagsFrom 0 line (roles line)

@[simp] theorem scan_nil (before : Text) (mode : Mode) : scan before mode [] = [] := rfl

@[simp] theorem scan_cons (before : Text) (mode : Mode) (c : Char) (rest : Text) :
    scan before mode (c :: rest) =
      (step before mode c rest).1 :: scan (c :: before) (step before mode c rest).2 rest := rfl

/-- The reading says something about every character. -/
@[simp] theorem length_scan (before : Text) (mode : Mode) (line : Text) :
    (scan before mode line).length = line.length := by
  induction line generalizing before mode with
  | nil => rfl
  | cons c rest ih => simp [ih]

@[simp] theorem length_roles (line : Text) : (roles line).length = line.length :=
  length_scan [] .code line

end Offside.Brace
