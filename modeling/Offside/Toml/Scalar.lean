import Offside.Settings.Number
import Offside.Settings.Value
import Offside.Text.Quoted

/-!
# Editions of TOML, numbers and dates

The notation has two editions, and the later one allows more: two further escapes, times without
seconds, and tables in braces that run over several lines, with comments and a comma at the end. Each
edition also has a limit to how deep a document nests. The editions, and the limits, are those of two
versions of a library for TOML, which settings are loaded with.

A value that is written without quotes and brackets is one word. `scalar?` reads the word: a boolean,
an integer in one of four bases, a floating-point number, a date, a time, or both. Integers have 64
bits, dates and times have to exist, and a number too great for a double, of either sign, is refused.
-/

namespace Offside.Toml

open Offside.Settings (Fields Number.fitsDouble Value)

/-- The editions of the notation. -/
inductive Edition where
  | v10
  | v11
  deriving Repr, DecidableEq

namespace Edition

/-- How many arrays and tables may stand inside each other, and how many parts a key may have. -/
def limit : Edition → Nat
  | v10 => 79
  | v11 => 80

/-- The character that stands for what follows a backslash, and the text after it. -/
def escape? : Edition → Text → Option (Char × Text)
  | v11, 'e' :: rest => some ('\x1b', rest)
  | v11, 'x' :: a :: b :: rest => (Text.hexChar? [a, b]).map (·, rest)
  | _, t => Text.escape? t

end Edition

/-- Characters of a word. -/
def isWordChar (c : Char) : Bool := c.isAlphanum || ['+', '-', '_', '.', ':'].contains c

/-- Digits of a base, with single underscores between them, as digits alone. -/
def groups? (isDigit : Char → Bool) : Text → Option Text
  | [] => none
  | [c] => if isDigit c then some [c] else none
  | c :: '_' :: rest => if isDigit c then (groups? isDigit rest).map (c :: ·) else none
  | c :: rest => if isDigit c then (groups? isDigit rest).map (c :: ·) else none

/-- The value of a digit up to 15. -/
def digitValue (c : Char) : Nat :=
  if c.isDigit then c.toNat - '0'.toNat else c.toLower.toNat - 'a'.toNat + 10

/-- The value of digits in a base. -/
def ofDigits (base : Nat) (digits : Text) : Nat :=
  digits.foldl (fun n c => n * base + digitValue c) 0

def isHexDigit (c : Char) : Bool := c.isDigit || ('a' ≤ c.toLower && c.toLower ≤ 'f')

def isOctalDigit (c : Char) : Bool := '0' ≤ c && c ≤ '7'

def isBinaryDigit (c : Char) : Bool := c == '0' || c == '1'

/-- The decimal digits of a whole number; no zero stands before other digits. -/
def wholeDigits? (t : Text) : Option Text :=
  (groups? Char.isDigit t).filter fun digits => digits.length == 1 || digits.head? != some '0'

/-- A sign, which is positive where none is written, and the rest. -/
def sign : Text → Bool × Text
  | '+' :: rest => (true, rest)
  | '-' :: rest => (false, rest)
  | t => (true, t)

/-- An integer of 64 bits. -/
def integer? (t : Text) : Option Int :=
  let magnitude : Option (Bool × Nat) :=
    match t with
    | '0' :: 'x' :: rest => (groups? isHexDigit rest).map fun d => (true, ofDigits 16 d)
    | '0' :: 'o' :: rest => (groups? isOctalDigit rest).map fun d => (true, ofDigits 8 d)
    | '0' :: 'b' :: rest => (groups? isBinaryDigit rest).map fun d => (true, ofDigits 2 d)
    | _ => (wholeDigits? (sign t).2).map fun d => ((sign t).1, ofDigits 10 d)
  match magnitude with
  | some (true, n) => if n < Nat.pow 2 63 then some n else none
  | some (false, n) => if n ≤ Nat.pow 2 63 then some (-(n : Int)) else none
  | none => none

/-- The value of an exponent, which may start with zeros. -/
def exponent? (t : Text) : Option Int :=
  (groups? Char.isDigit (sign t).2).map fun d =>
    if (sign t).1 then (ofDigits 10 d : Int) else -(ofDigits 10 d : Int)

/-- A floating-point number, as whole digits, digits of the fraction and exponent; a fraction or an
exponent has to be there. -/
def decimal? (t : Text) : Option (Text × Text × Int) := do
  let isMark (c : Char) : Bool := c == 'e' || c == 'E'
  let mantissa := t.takeWhile (!isMark ·)
  let power := t.dropWhile (!isMark ·)
  let whole ← wholeDigits? (mantissa.takeWhile (· != '.'))
  let fraction ←
    match mantissa.dropWhile (· != '.') with
    | [] => some []
    | _ :: digits => groups? Char.isDigit digits
  let exponent ←
    match power with
    | [] => some 0
    | _ :: rest => exponent? rest
  if fraction.isEmpty && power.isEmpty then none else return (whole, fraction, exponent)

/-- The floating-point number that a word is. -/
def float? (t : Text) : Option Value :=
  let u := (sign t).2
  if u == "inf".toList || u == "nan".toList then some .nothing
  else
    match decimal? u with
    | some (whole, fraction, exponent) =>
      if Number.fitsDouble (ofDigits 10 (whole ++ fraction)) (exponent - fraction.length) then some .real
      else none
    | none => none

/-! ### Dates and times -/

/-- A number of exactly `n` digits, and what follows it. -/
def fixed? (n : Nat) (t : Text) : Option (Nat × Text) :=
  let digits := t.take n
  if digits.length == n && digits.all Char.isDigit then some (ofDigits 10 digits, t.drop n) else none

/-- What follows a character. -/
def expect? (c : Char) (t : Text) : Option Text := if t.head? = some c then some t.tail else none

/-- Whether a year has 366 days. -/
def isLeapYear (year : Nat) : Bool := year % 4 == 0 && (year % 100 != 0 || year % 400 == 0)

/-- The number of days in a month. -/
def daysIn (year month : Nat) : Nat :=
  if month == 2 then if isLeapYear year then 29 else 28
  else if [4, 6, 9, 11].contains month then 30
  else 31

/-- What follows a date. -/
def date? (t : Text) : Option Text := do
  let (year, t) ← fixed? 4 t
  let (month, t) ← fixed? 2 (← expect? '-' t)
  let (day, t) ← fixed? 2 (← expect? '-' t)
  if 1 ≤ month && month ≤ 12 && 1 ≤ day && day ≤ daysIn year month then some t else none

/-- What follows the seconds of a time, after their colon. -/
def seconds? (t : Text) : Option Text := do
  let (second, t) ← fixed? 2 t
  let t ←
    match t with
    | '.' :: rest =>
      if (rest.takeWhile Char.isDigit).isEmpty then none else some (rest.dropWhile Char.isDigit)
    | _ => some t
  if second ≤ 60 then some t else none

/-- What follows a time of the day. -/
def time? (e : Edition) (t : Text) : Option Text := do
  let (hour, t) ← fixed? 2 t
  let (minute, t) ← fixed? 2 (← expect? ':' t)
  if hour ≤ 23 && minute ≤ 59 then
    match t with
    | ':' :: rest => seconds? rest
    | _ => if e = .v11 then some t else none
  else none

/-- What follows the distance from universal time, which may be missing. -/
def zone? (t : Text) : Option Text :=
  match t with
  | 'Z' :: rest => some rest
  | 'z' :: rest => some rest
  | c :: rest =>
    if c == '+' || c == '-' then do
      let (hour, t) ← fixed? 2 rest
      let (minute, t) ← fixed? 2 (← expect? ':' t)
      if hour ≤ 23 && minute ≤ 59 then some t else none
    else some t
  | [] => some []

/-- Whether a word is a date, a time, or a date with a time. -/
def isMoment (e : Edition) (t : Text) : Bool :=
  let dated := (date? t).bind fun rest =>
    match rest with
    | [] => some []
    | c :: rest => if ['T', 't', ' '].contains c then (time? e rest).bind zone? else none
  dated == some [] || time? e t == some []

/-- A date or a time as a value: a table with one key. -/
def moment (t : Text) : Value := .table (.single "moment".toList (.text t))

/-- What a word means. -/
def scalar? (e : Edition) (t : Text) : Option Value :=
  if t == "true".toList || t == "false".toList then some .boolean
  else
    match integer? t, float? t with
    | some n, _ => some (.integer n)
    | none, some v => some v
    | none, none => if isMoment e t then some (moment t) else none

/-- The word at the front, and what follows it. A date and a time after one space are one word. -/
def word (e : Edition) (t : Text) : Text × Text :=
  let first := t.takeWhile isWordChar
  match t.dropWhile isWordChar with
  | ' ' :: rest =>
    if date? first == some [] && (time? e (rest.takeWhile isWordChar)).isSome then
      (first ++ ' ' :: rest.takeWhile isWordChar, rest.dropWhile isWordChar)
    else (first, ' ' :: rest)
  | rest => (first, rest)

end Offside.Toml
