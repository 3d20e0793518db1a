import Offside.Text.Utf8

/-!
# Sources and their lines

A source is cut into lines at every line feed, and a carriage return that stands directly before the
line feed goes with it. A final line feed starts no further line, and a last line without one keeps
its carriage return. The rule is stated once for any alphabet, because sources come as characters
and as bytes.

A source that is read consists of bytes, after which it ends or fails. Its lines are read one after
another: a line that is no well-formed UTF-8 ends the reading, and so does the failure. A line that
the failure cuts off is not looked at.
-/

namespace Offside.Lines

/-- Cuts at every `feed`; one `ret` directly before a `feed` is dropped. -/
def split {α : Type} [DecidableEq α] (feed ret : α) : List α → List (List α)
  | [] => []
  | c :: rest =>
    if c = feed then [] :: split feed ret rest
    else if c = ret ∧ rest.head? = some feed then split feed ret rest
    else
      match split feed ret rest with
      | [] => [[c]]
      | line :: lines => (c :: line) :: lines

/-- The lines of a text. -/
def ofText (t : Text) : List Text := split '\n' '\r' t

/-- The text in which every line is ended by a line feed. -/
def toText (lines : List Text) : Text := lines.flatMap fun line => line ++ ['\n']

@[simp] theorem split_nil {α : Type} [DecidableEq α] (feed ret : α) : split feed ret [] = [] := rfl

@[simp] theorem toText_nil : toText [] = [] := rfl

@[simp] theorem toText_cons (line : Text) (lines : List Text) :
    toText (line :: lines) = line ++ '\n' :: toText lines := by
  simp [toText]

end Offside.Lines

namespace Offside

/-- The bytes that can be read, and the failure that follows them, if any. -/
structure Source where
  bytes : Bytes
  failure : Option String := none
  deriving Repr, DecidableEq

/-- Why a source cannot be read. -/
inductive ReadFault where
  | notText
  | failed (reason : String)
  deriving Repr, DecidableEq

/-- What is said about a source that cannot be read. -/
def ReadFault.message : ReadFault → String
  | notText => "stream did not contain valid UTF-8"
  | failed reason => reason

namespace Source

/-- The line feed as a byte. -/
def feed : UInt8 := 0x0a

/-- The carriage return as a byte. -/
def ret : UInt8 := 0x0d

/-- The bytes up to and with the last line feed. -/
def complete (bytes : Bytes) : Bytes := (bytes.reverse.dropWhile (· != feed)).reverse

/-- The texts of some lines; none if one of them is not well-formed. -/
def decodeLines (lines : List Bytes) : Option (List Text) := lines.mapM Utf8.decode

/-- All lines of a source. -/
def read (s : Source) : Except ReadFault (List Text) :=
  match s.failure with
  | none =>
    match decodeLines (Lines.split feed ret s.bytes) with
    | some lines => .ok lines
    | none => .error .notText
  | some reason =>
    match decodeLines (Lines.split feed ret (complete s.bytes)) with
    | some _ => .error (.failed reason)
    | none => .error .notText

end Source

end Offside
