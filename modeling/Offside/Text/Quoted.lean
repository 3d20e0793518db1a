import Offside.Text.Basic
import Offside.Text.Shapeless

/-!
# Quoted text

Text between double quotes stands for itself up to escapes. The first half reads escapes: what may
follow a backslash, and the character it stands for. The second half writes a text between quotes, in
which quotes, backslashes and every character without a shape of its own are escaped. The two belong to
different notations, and what is written is not meant to be read back.
-/

namespace Offside.Text

/-! ### Reading -/

/-- Characters that may stand in a quoted text as they are: no control characters but the tab. -/
def isPlain (c : Char) : Bool := c == '\t' || (0x20 ≤ c.toNat && c.toNat != 0x7f)

/-- The value of hexadecimal digits. -/
def hexValue? (digits : Text) : Option Nat :=
  if digits.all (fun c => c.isDigit || ('a' ≤ c.toLower && c.toLower ≤ 'f')) then
    some (digits.foldl (fun n c =>
      n * 16 + (if c.isDigit then c.toNat - '0'.toNat else c.toLower.toNat - 'a'.toNat + 10)) 0)
  else none

/-- The character with a code, unless the code belongs to none. -/
def charOf? (code : Nat) : Option Char :=
  if h : code.isValidChar then some (Char.ofNatAux code h) else none

/-- The character with a code in hexadecimal digits. -/
def hexChar? (digits : Text) : Option Char := (hexValue? digits).bind charOf?

/-- The character that stands for what follows a backslash, and the text after it. -/
def escape? : Text → Option (Char × Text)
  | 'b' :: rest => some ('\x08', rest)
  | 't' :: rest => some ('\t', rest)
  | 'n' :: rest => some ('\n', rest)
  | 'f' :: rest => some ('\x0c', rest)
  | 'r' :: rest => some ('\r', rest)
  | '"' :: rest => some ('"', rest)
  | '\\' :: rest => some ('\\', rest)
  | 'u' :: a :: b :: c :: d :: rest => (hexChar? [a, b, c, d]).map (·, rest)
  | 'U' :: a :: b :: c :: d :: e :: f :: g :: h :: rest =>
    (hexChar? [a, b, c, d, e, f, g, h]).map (·, rest)
  | _ => none

/-! ### Writing -/

/-- The digits of a number in base 16. -/
def hexDigits (n : Nat) : Text := Nat.toDigits 16 n

/-- A character inside a quoted text. -/
def quotedChar (c : Char) : Text :=
  match c with
  | '\x00' => ['\\', '0']
  | '\t' => ['\\', 't']
  | '\r' => ['\\', 'r']
  | '\n' => ['\\', 'n']
  | '"' => ['\\', '"']
  | '\\' => ['\\', '\\']
  | c => if isShapeless c then ['\\', 'u', '{'] ++ hexDigits c.toNat ++ ['}'] else [c]

/-- A text between double quotes. -/
def quoted (t : Text) : Text := '"' :: t.flatMap quotedChar ++ ['"']

end Offside.Text
