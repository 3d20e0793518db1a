/-!
# Text, character by character

Source text is a list of characters. The three trims remove the characters of the Unicode property
`White_Space` and nothing else; positions are counted in characters and measured in UTF-8 bytes only
where they are reported.
-/

namespace Offside

/-- A piece of text, character by character. -/
abbrev Text := List Char

namespace Text

/-- The characters of the Unicode property `White_Space`. -/
def isBlank (c : Char) : Bool :=
  let n := c.toNat
  (0x09 ≤ n && n ≤ 0x0d) || n == 0x20 || n == 0x85 || n == 0xa0 || n == 0x1680 ||
    (0x2000 ≤ n && n ≤ 0x200a) || n == 0x2028 || n == 0x2029 || n == 0x202f || n == 0x205f ||
    n == 0x3000

/-- The text without its leading blanks. -/
def trimStart (t : Text) : Text := t.dropWhile isBlank

/-- The text without its trailing blanks. -/
def trimEnd (t : Text) : Text := (t.reverse.dropWhile isBlank).reverse

/-- The text without leading and trailing blanks. -/
def trim (t : Text) : Text := trimEnd (trimStart t)

/-- Columns of leading indentation: every space and every tab is one column. -/
def indentation (t : Text) : Nat := (t.takeWhile fun c => c == ' ' || c == '\t').length

/-- Size in UTF-8 bytes. -/
def byteSize : Text → Nat
  | [] => 0
  | c :: rest => c.utf8Size + byteSize rest

/-- Where the character at position `i` starts, in UTF-8 bytes. -/
def byteOffset (t : Text) (i : Nat) : Nat := byteSize (t.take i)

/-- Whether `needle` stands somewhere in the text. -/
def occurs (needle : Text) : Text → Bool
  | [] => needle.isEmpty
  | c :: rest => needle.isPrefixOf (c :: rest) || occurs needle rest

/-- The pieces between the occurrences of a separator; never empty. -/
def splitOn (sep : Char) : Text → List Text
  | [] => [[]]
  | c :: rest =>
    if c = sep then [] :: splitOn sep rest
    else
      match splitOn sep rest with
      | [] => [[c]]
      | piece :: pieces => (c :: piece) :: pieces

/-- The text before the first `c` and the text after it. -/
def cutAt (c : Char) : Text → Option (Text × Text)
  | [] => none
  | d :: rest => if d = c then some ([], rest) else (cutAt c rest).map fun p => (d :: p.1, p.2)

/-- As many characters from the front as fit into `n` bytes. -/
def takeBytes : Nat → Text → Text
  | _, [] => []
  | n, c :: rest => if c.utf8Size ≤ n then c :: takeBytes (n - c.utf8Size) rest else []

/-- The text in small letters, ASCII letters only. -/
def toLower (t : Text) : Text := t.map Char.toLower

/-- Equality up to the case of ASCII letters. -/
def sameLetters (t u : Text) : Bool := toLower t == toLower u

@[simp] theorem trim_nil : trim [] = [] := rfl

@[simp] theorem byteSize_nil : byteSize [] = 0 := rfl

@[simp] theorem byteSize_cons (c : Char) (t : Text) : byteSize (c :: t) = c.utf8Size + byteSize t := rfl

theorem byteSize_append (t u : Text) : byteSize (t ++ u) = byteSize t + byteSize u := by
  induction t with
  | nil => simp
  | cons c t ih => simp [ih, Nat.add_assoc]

end Text

end Offside
