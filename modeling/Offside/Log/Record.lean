import Offside.Event
import Offside.Settings.Basic
import Offside.Text.Quoted

/-!
# Log records

How an event is written down, as one line: as a JSON object, or compactly, with the severity, the
target, the message and the named values one after another.
-/

namespace Offside.Log

/-- A value in a compact record: source text is quoted, all else is written as it is. -/
def compactValue : EventValue → Text
  | .number n => (toString n).toList
  | .label t => t
  | .source t => Text.quoted t

/-- An event in one line of text. -/
def compact (e : Event) : Text :=
  s!"{e.severity.name} {e.target}: {e.message}".toList ++
    e.fields.flatMap fun f => ' ' :: f.1.toList ++ '=' :: compactValue f.2

/-- A character inside a JSON string. -/
def jsonChar (c : Char) : Text :=
  if c == '"' || c == '\\' then ['\\', c]
  else if c.toNat < 0x20 then
    ['\\', 'u', '0', '0'] ++ (if c.toNat < 0x10 then ['0'] else []) ++ Nat.toDigits 16 c.toNat
  else [c]

/-- A JSON string. -/
def jsonString (t : Text) : Text := '"' :: t.flatMap jsonChar ++ ['"']

/-- A value in a JSON record. -/
def jsonValue : EventValue → Text
  | .number n => (toString n).toList
  | .label t => jsonString t
  | .source t => jsonString t

/-- An event as a JSON object, with its values beside the severity, the message and the target. -/
def json (e : Event) : Text :=
  let members : List (Text × Text) :=
    [("level".toList, jsonString e.severity.name.toList),
      ("message".toList, jsonString e.message.toList)] ++
      e.fields.map (fun f => (f.1.toList, jsonValue f.2)) ++
      [("target".toList, jsonString e.target.toList)]
  let written := members.map fun m => jsonString m.1 ++ ':' :: m.2
  '{' :: List.intercalate [','] written ++ ['}']

/-- An event in a format. -/
def record : LogFormat → Event → Text
  | .json => json
  | .compact => compact

end Offside.Log
