import Offside.Text.Basic

/-!
# UTF-8

Arguments, files and the input stream are bytes. `decode` reads well-formed UTF-8 and nothing else;
`lossy` reads any bytes, with one replacement character for each maximal ill-formed stretch.
-/

namespace Offside

/-- A sequence of bytes. -/
abbrev Bytes := List UInt8

namespace Bytes

/-- The bytes of an ASCII or other literal. -/
def ofString (s : String) : Bytes := s.toUTF8.toList

end Bytes

namespace Utf8

/-- The bytes of a text. -/
def encode (t : Text) : Bytes := t.flatMap String.utf8EncodeChar

/-- The text of well-formed bytes. -/
def decode (b : Bytes) : Option Text := b.toByteArray.utf8Decode?.map Array.toList

/-- The character at the front of the bytes, if they start with a well-formed one. -/
def first (b : Bytes) : Option Char := (b.take 4).toByteArray.utf8DecodeChar? 0

/-- Least and greatest second byte that may follow a lead byte of three or four bytes. -/
def secondRange (lead : UInt8) : UInt8 × UInt8 :=
  if lead == 0xe0 then (0xa0, 0xbf)
  else if lead == 0xed then (0x80, 0x9f)
  else if lead == 0xf0 then (0x90, 0xbf)
  else if lead == 0xf4 then (0x80, 0x8f)
  else (0x80, 0xbf)

/-- How many bytes a lead byte announces in all; one for a byte that leads nothing. -/
def announced (lead : UInt8) : Nat :=
  if 0xe0 ≤ lead && lead ≤ 0xef then 3 else if 0xf0 ≤ lead && lead ≤ 0xf4 then 4 else 1

/-- Length of the ill-formed stretch at the front: the longest start of a character that its lead
byte allows, and at least one byte. -/
def illFormed : Bytes → Nat
  | lead :: second :: third :: _ =>
    if announced lead ≤ 2 then 1
    else if (secondRange lead).1 ≤ second && second ≤ (secondRange lead).2 then
      if announced lead = 4 && 0x80 ≤ third && third ≤ 0xbf then 3 else 2
    else 1
  | [lead, second] =>
    if announced lead ≤ 2 then 1
    else if (secondRange lead).1 ≤ second && second ≤ (secondRange lead).2 then 2
    else 1
  | _ => 1

/-- Reads at most `fuel` characters, replacing what is ill-formed. -/
def lossyUpTo : Nat → Bytes → Text
  | 0, _ => []
  | _, [] => []
  | fuel + 1, b =>
    match first b with
    | some c => c :: lossyUpTo fuel (b.drop c.utf8Size)
    | none => '�' :: lossyUpTo fuel (b.drop (illFormed b))

/-- The text of any bytes, with a replacement character for each ill-formed stretch. -/
def lossy (b : Bytes) : Text := lossyUpTo b.length b

end Utf8

end Offside
