import Offside.Text.Basic

/-!
# Numbers in settings

Decimal integers, with an optional sign and no blanks, and decimals with a point. `fitsDouble` tells
which decimals are finite as floating-point numbers of 64 bits.
-/

namespace Offside.Settings.Number

/-- The value of a run of decimal digits. -/
def ofDigits (digits : Text) : Nat := digits.foldl (fun n c => n * 10 + (c.toNat - '0'.toNat)) 0

/-- At least one digit, and nothing else. -/
def isDigits (t : Text) : Bool := !t.isEmpty && t.all Char.isDigit

/-- A natural number below 2^64; a plus sign may stand before it. -/
def natural? (t : Text) : Option Nat :=
  let digits := match t with
    | '+' :: rest => rest
    | _ => t
  if isDigits digits && ofDigits digits < Nat.pow 2 64 then some (ofDigits digits) else none

/-- A negative integer, or zero with a minus sign, not below -2^63. -/
def negative? (t : Text) : Option Int :=
  match t with
  | '-' :: digits =>
    if isDigits digits && ofDigits digits ≤ Nat.pow 2 63 then some (-(ofDigits digits : Int)) else none
  | _ => none

/-- The text without a sign at its front. -/
def unsigned : Text → Text
  | '+' :: rest => rest
  | '-' :: rest => rest
  | t => t

/-- The value of an exponent with its mark; 0 if there is none. -/
def exponent? : Text → Option Int
  | [] => some 0
  | mark :: rest =>
    if (mark == 'e' || mark == 'E') && isDigits (unsigned rest) then
      let n : Int := ofDigits (unsigned rest)
      some (if rest.head? = some '-' then -n else n)
    else none

/-- A decimal with a point, without its sign: as `(m, e)` for `m * 10 ^ e`. Digits may be missing on
one side of the point, and an exponent may follow. -/
def pointed? (t : Text) : Option (Nat × Int) :=
  let u := unsigned t
  let whole := u.takeWhile Char.isDigit
  match u.dropWhile Char.isDigit with
  | '.' :: rest =>
    let fraction := rest.takeWhile Char.isDigit
    if whole.isEmpty && fraction.isEmpty then none
    else
      (exponent? (rest.dropWhile Char.isDigit)).map fun e =>
        (ofDigits (whole ++ fraction), e - fraction.length)
  | _ => none

/-- Whether `mantissa * 10 ^ exponent` rounds to a double that is finite. -/
def fitsDouble (mantissa : Nat) (exponent : Int) : Bool :=
  let size : Int := (Nat.toDigits 10 mantissa).length + exponent
  let limit := Nat.pow 2 1024 - Nat.pow 2 970
  mantissa == 0 || size < 308 ||
    (size ≤ 310 &&
      (if 0 ≤ exponent then mantissa * Nat.pow 10 exponent.toNat < limit
       else mantissa < limit * Nat.pow 10 (-exponent).toNat))

end Offside.Settings.Number
