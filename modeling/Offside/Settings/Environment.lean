import Offside.Settings.Number
import Offside.Settings.Value
import Offside.Text.Quoted

/-!
# Settings from the environment

A variable gives a setting by its name, in any case of the letters and with blanks around it ignored.
After the part that all the names share, two underscores or a dot lead into a table; a name that
leaves a key of the way empty gives nothing. The text of a variable is read as a value:

* a text with a comma is a list, unless it starts with a bracket, a brace or a quote;
* `[...]` is a list and `{...}` a table of further values;
* `"..."` is the text between the quotes, with escapes, and `'c'` is the character `c`;
* `true` and `false` are booleans, alone in any case of the letters;
* integers of 64 bits, and decimals with a point, are numbers;
* everything else, and whatever does not follow these rules to its end, is the text itself.

The command says only what its settings are called and what the names of their variables start with. All
else here is decided by the library that loads the settings, which is not a part of the command.
-/

namespace Offside.Settings.Environment

/-- The variables of an environment, in order. -/
abbrev Variables := List (Text × Text)

/-- The value of a variable, by its exact name. -/
def get? (environment : Variables) (name : String) : Option Text :=
  (environment.reverse.lookup name.toList)

/-! ### Values -/

def isSpace (c : Char) : Bool := [' ', '\t', '\n', '\r', '\x0c'].contains c

def skip (t : Text) : Text := t.dropWhile isSpace

/-- Characters that end an unquoted value. -/
def isSeparator (c : Char) : Bool := [',', '{', '}', '[', ']'].contains c

def isKeyChar (c : Char) : Bool := c.isAlphanum || c == '_' || c == '-'

/-- What an unquoted text means, if it is no boolean. -/
def scalar (t : Text) : Value :=
  match Number.pointed? t, Number.natural? t, Number.negative? t with
  | some (mantissa, exponent), _, _ => if Number.fitsDouble mantissa exponent then .real else .nothing
  | none, some n, _ => .integer n
  | none, none, some n => .integer n
  | none, none, none => .text t

/-- What follows a boolean at the front. -/
def boolean? (t : Text) : Option Text :=
  ["true", "false"].findSome? fun name =>
    if name.toList.isPrefixOf t then some (t.drop name.length) else none

/-- The text up to the closing quote, with its escapes, and what follows the quote. -/
def quoted? : Text → Option (Text × Text)
  | [] => none
  | '"' :: rest => some ([], rest)
  | '\\' :: c :: rest => (quoted? rest).map fun p => ('\\' :: c :: p.1, p.2)
  | c :: rest => (quoted? rest).map fun p => (c :: p.1, p.2)

/-- The text with each escape replaced by the character it stands for. -/
def unescaped? : Nat → Text → Option Text
  | 0, _ => none
  | _, [] => some []
  | fuel + 1, '\\' :: rest => do
    let (c, rest) ← Text.escape? rest
    return c :: (← unescaped? fuel rest)
  | fuel + 1, c :: rest => if Text.isPlain c then (unescaped? fuel rest).map (c :: ·) else none

/-- What a text between quotes means. Where there are escapes, of the text before the first one only
as many bytes are kept as it has characters. -/
def meaning? (t : Text) : Option Text :=
  let before := t.takeWhile (· != '\\')
  if !before.all Text.isPlain then none
  else if before.length = t.length then some t
  else
    (unescaped? (t.length + 1) (t.drop before.length)).map fun rest =>
      Text.takeBytes before.length before ++ rest

/-- A quoted text, after the first quote. -/
def string? (t : Text) : Option (Text × Text) := do
  let (inner, rest) ← quoted? t
  return (← meaning? inner, rest)

/-- A key of a table, and what follows its equals sign. -/
def key? (t : Text) : Option (Text × Text) := do
  let u := skip t
  let (key, rest) ←
    match u with
    | '"' :: rest => string? rest
    | _ =>
      let key := u.takeWhile isKeyChar
      if key.isEmpty then none else some (key, u.drop key.length)
  match skip rest with
  | '=' :: rest => some (key, rest)
  | _ => none

mutual

/-- A value and what follows it. -/
def value? : Nat → Text → Option (Value × Text)
  | 0, _ => none
  | fuel + 1, t =>
    match boolean? (skip t), skip t with
    | some rest, _ => some (.boolean, skip rest)
    | none, [] => some (.text [], [])
    | none, '[' :: rest => (elements? fuel rest).map fun after => (.list, skip after)
    | none, '{' :: rest => (pairs? fuel .nil rest).map fun p => (.table p.1, skip p.2)
    | none, '"' :: rest => (string? rest).map fun p => (.text p.1, skip p.2)
    | none, '\'' :: c :: '\'' :: rest => some (.text [c], skip rest)
    | none, '\'' :: _ => none
    | none, u =>
      some (scalar (Text.trim (u.takeWhile (!isSeparator ·))), skip (u.dropWhile (!isSeparator ·)))

/-- What follows the values between brackets. -/
def elements? : Nat → Text → Option Text
  | 0, _ => none
  | fuel + 1, t =>
    if t.head? = some ']' then some t.tail
    else
      match value? fuel t with
      | some (_, ',' :: rest) => elements? fuel rest
      | some (_, ']' :: rest) => some rest
      | _ => none

/-- The keys and values between braces, after those before them, and what follows. -/
def pairs? : Nat → Fields → Text → Option (Fields × Text)
  | 0, _, _ => none
  | fuel + 1, fields, t =>
    if t.head? = some '}' then some (fields, t.tail)
    else
      match key? t with
      | none => none
      | some (key, start) =>
        match value? fuel start with
        | some (v, ',' :: rest) => pairs? fuel (fields.put key v) rest
        | some (v, '}' :: rest) => some (fields.put key v, rest)
        | _ => none

end

/-- What the text of a variable means. -/
def read (raw : Text) : Value :=
  let t := Text.trim raw
  let bracketed := t.head?.any fun c => ['[', '{', '"', '\''].contains c
  if t.contains ',' && !bracketed then .list
  else if ["true", "false"].any fun name => Text.sameLetters t name.toList then .boolean
  else
    match value? (2 * t.length + 2) t with
    | some (v, []) => v
    | _ => .text t

/-! ### Names -/

/-- What the names of all variables with settings start with. -/
def sharedName : Text := "BYTHON_".toList

/-- The text with a dot for every two underscores. -/
def dotted : Text → Text
  | '_' :: '_' :: rest => '.' :: dotted rest
  | c :: rest => c :: dotted rest
  | [] => []

/-- The keys that the name of a variable leads through. -/
def path? (name : Text) : Option (List Text) :=
  let t := Text.trim name
  if Text.sameLetters (t.take sharedName.length) sharedName then
    let keys := Text.splitOn '.' (Text.toLower (Text.trim (dotted (t.drop sharedName.length))))
    if keys.contains [] then none else some keys
  else none

/-- A value under the keys of a path. -/
def nested (path : List Text) (v : Value) : Value :=
  path.foldr (fun key inner => .table (.single key inner)) v

/-- What all variables give together. Of two that give the same, the last one counts. -/
def fields (environment : Variables) : Fields :=
  environment.foldl
    (fun sofar v =>
      match path? v.1 with
      | some (key :: path) => sofar.overlay (.single key (nested path (read v.2)))
      | _ => sofar)
    .nil

/-- What the environment gives. -/
def layer (environment : Variables) : Layer := .ofFields (fields environment)

end Offside.Settings.Environment
