import Offside.Text.Quoted
import Offside.Toml.Scalar
import Offside.Toml.Table

/-!
# TOML documents

A document is a sequence of lines that hold a key and its value, the header of a table, or nothing,
each with an optional comment. `parse` gives the tables of a document, or none if the document breaks
a rule.

The command holds no reader of its own for this notation. What is accepted here, in these three modules,
is what the library accepts that its settings are loaded with, where that is more or less than the
notation itself allows.
-/

namespace Offside.Toml

open Offside.Settings (Value)

/-- Reads something at the front of a text; gives what it read and what follows. -/
abbrev Reader (α : Type) := Text → Option (α × Text)

def isTomlBlank (c : Char) : Bool := c == ' ' || c == '\t'

def skipBlanks (t : Text) : Text := t.dropWhile isTomlBlank

/-- What follows the end of a line. -/
def lineEnd? : Text → Option Text
  | '\n' :: rest => some rest
  | '\r' :: '\n' :: rest => some rest
  | _ => none

/-- What follows blanks and a comment: the end of the line, or of the document. -/
def skipComment (t : Text) : Text :=
  match skipBlanks t with
  | '#' :: rest => rest.dropWhile Text.isPlain
  | rest => rest

/-- What follows blanks, ends of lines and comments. -/
def skipLines : Nat → Text → Text
  | 0, t => t
  | fuel + 1, t =>
    match lineEnd? (skipComment t) with
    | some rest => skipLines fuel rest
    | none => skipBlanks t

/-! ### Strings -/

/-- A string in double quotes, after the first quote. -/
def basic? (e : Edition) : Nat → Reader Text
  | 0, _ => none
  | _, [] => none
  | fuel + 1, c :: rest =>
    if c = '"' then some ([], rest)
    else if c = '\\' then do
      let (d, rest) ← e.escape? rest
      let (t, rest) ← basic? e fuel rest
      return (d :: t, rest)
    else if Text.isPlain c then do
      let (t, rest) ← basic? e fuel rest
      return (c :: t, rest)
    else none

/-- A string in single quotes, after the first quote. -/
def literal? (t : Text) : Option (Text × Text) :=
  let inside (c : Char) : Bool := c != '\'' && Text.isPlain c
  match t.dropWhile inside with
  | '\'' :: rest => some (t.takeWhile inside, rest)
  | _ => none

/-- What follows blanks and ends of lines. -/
def skipSpace : Nat → Text → Text
  | 0, t => t
  | fuel + 1, t =>
    match lineEnd? (skipBlanks t) with
    | some rest => skipSpace fuel rest
    | none => skipBlanks t

/-- A string over several lines, after the three quotes and the end of line that may follow them. The
last three of up to five quotes end it. In double quotes a backslash starts an escape, or joins its
line with the next text. -/
def multiline? (e : Edition) (quote : Char) : Nat → Reader Text
  | 0, _ => none
  | _, [] => none
  | fuel + 1, c :: rest =>
    if [quote, quote, quote].isPrefixOf (c :: rest) then
      let run := (rest.drop 2).takeWhile (· == quote)
      if run.length ≤ 2 then some (run, (rest.drop 2).dropWhile (· == quote)) else none
    else if c = '\\' ∧ quote = '"' then
      match lineEnd? (skipBlanks rest) with
      | some _ => multiline? e quote fuel (skipSpace fuel rest)
      | none => do
        let (d, rest) ← e.escape? rest
        let (t, rest) ← multiline? e quote fuel rest
        return (d :: t, rest)
    else
      match lineEnd? (c :: rest) with
      | some after => do
        let (t, rest) ← multiline? e quote fuel after
        return ('\n' :: t, rest)
      | none =>
        if Text.isPlain c then do
          let (t, rest) ← multiline? e quote fuel rest
          return (c :: t, rest)
        else none

/-- The text without the end of a line at its front. -/
def dropLineEnd (t : Text) : Text := (lineEnd? t).getD t

/-- A string of any of the four kinds. -/
def string? (e : Edition) (t : Text) : Option (Text × Text) :=
  match t with
  | '"' :: '"' :: '"' :: rest => multiline? e '"' (rest.length + 1) (dropLineEnd rest)
  | '\'' :: '\'' :: '\'' :: rest => multiline? e '\'' (rest.length + 1) (dropLineEnd rest)
  | '"' :: rest => basic? e (rest.length + 1) rest
  | '\'' :: rest => literal? rest
  | _ => none

/-! ### Keys -/

def isKeyChar (c : Char) : Bool := c.isAlphanum || c == '_' || c == '-'

/-- One part of a key. -/
def keyPart? (e : Edition) (t : Text) : Option (Text × Text) :=
  match t with
  | '"' :: rest => basic? e (rest.length + 1) rest
  | '\'' :: rest => literal? rest
  | _ => if (t.takeWhile isKeyChar).isEmpty then none else some (t.takeWhile isKeyChar, t.dropWhile isKeyChar)

/-- The parts of a key, with dots between them. Blanks around the parts are skipped. -/
def keyParts? (e : Edition) : Nat → Reader (List Text)
  | 0, _ => none
  | fuel + 1, t => do
    let (part, rest) ← keyPart? e (skipBlanks t)
    match skipBlanks rest with
    | '.' :: rest =>
      let (parts, rest) ← keyParts? e fuel rest
      return (part :: parts, rest)
    | rest => return ([part], rest)

/-- A key, as its parts. -/
def key? (e : Edition) (fuel : Nat) (t : Text) : Option (List Text × Text) :=
  (keyParts? e fuel t).filter fun p => p.1.length ≤ e.limit

/-- A path and the key at its end. -/
def splitLast (parts : List Text) : Option (List Text × Text) :=
  parts.getLast?.map fun key => (parts.dropLast, key)

/-! ### Values -/

/-- What follows the gap between the parts of a table in braces. -/
def skipGap (e : Edition) (fuel : Nat) (t : Text) : Text :=
  match e with
  | .v10 => skipBlanks t
  | .v11 => skipLines fuel t

mutual

/-- A value. In it `room` arrays and tables may stand inside each other. -/
def value? (e : Edition) : Nat → Nat → Reader Value
  | 0, _, _ => none
  | fuel + 1, room, t =>
    match t, room with
    | '[' :: _, 0 => none
    | '{' :: _, 0 => none
    | '[' :: rest, room + 1 => (elements? e fuel room rest).map fun rest => (.list, rest)
    | '{' :: rest, room + 1 =>
      match skipGap e fuel rest with
      | '}' :: rest => some (.table .nil, rest)
      | rest => (pairs? e fuel room [] rest).map fun p => (.table (Entries.toFields p.1), p.2)
    | _, _ =>
      if t.head? = some '"' ∨ t.head? = some '\'' then (string? e t).map fun p => (.text p.1, p.2)
      else (scalar? e (word e t).1).map fun v => (v, (word e t).2)

/-- What follows the elements of an array. Lines may end anywhere between them, and a comma may
follow the last one. -/
def elements? (e : Edition) : Nat → Nat → Text → Option Text
  | 0, _, _ => none
  | fuel + 1, room, t =>
    match skipLines fuel t with
    | ']' :: rest => some rest
    | t =>
      match value? e fuel room t with
      | none => none
      | some (_, rest) =>
        match skipLines fuel rest with
        | ',' :: rest => elements? e fuel room rest
        | ']' :: rest => some rest
        | _ => none

/-- The keys and values of a table in braces, after those before them, and what follows. -/
def pairs? (e : Edition) : Nat → Nat → Entries → Text → Option (Entries × Text)
  | 0, _, _, _ => none
  | fuel + 1, room, entries, t =>
    match key? e fuel (skipGap e fuel t) with
    | none => none
    | some (parts, rest) =>
      match expect? '=' (skipGap e fuel rest) with
      | none => none
      | some rest =>
        match splitLast parts, value? e fuel room (skipGap e fuel rest) with
        | some (path, key), some (v, rest) =>
          match entries.addValue path key v .header, skipGap e fuel rest with
          | some entries, '}' :: rest => some (entries, rest)
          | some entries, ',' :: rest =>
            match e, skipGap e fuel rest with
            | .v11, '}' :: rest => some (entries, rest)
            | _, _ => pairs? e fuel room entries rest
          | _, _ => none
        | _, _ => none

end

/-! ### Documents -/

/-- What has been read: the tables, and the table that keys go to. -/
structure Progress where
  root : Entries := []
  header : List Text := []

namespace Progress

/-- Adds a value under a key of the table that keys go to. -/
def addValue (p : Progress) (parts : List Text) (v : Value) : Option Progress := do
  let (path, key) ← splitLast parts
  let root ← Entries.modify false (Entries.addValue path key v) p.header .header p.root
  return { p with root }

/-- Starts a table. -/
def addTable (p : Progress) (parts : List Text) : Option Progress := do
  let (path, key) ← splitLast parts
  return { root := ← p.root.addTable path key, header := parts }

/-- Starts a table of an array of tables. -/
def addElement (p : Progress) (parts : List Text) : Option Progress := do
  let (path, key) ← splitLast parts
  return { root := ← p.root.addElement path key, header := parts }

end Progress

/-- Reads what one line holds, up to its comment. -/
def expression? (e : Edition) (fuel : Nat) (p : Progress) (t : Text) : Option (Progress × Text) :=
  match t with
  | '[' :: '[' :: rest =>
    match key? e fuel rest with
    | some (parts, ']' :: ']' :: rest) => (p.addElement parts).map (·, rest)
    | _ => none
  | '[' :: rest =>
    match key? e fuel rest with
    | some (parts, ']' :: rest) => (p.addTable parts).map (·, rest)
    | _ => none
  | _ =>
    match key? e fuel t with
    | some (parts, '=' :: rest) => do
      let (v, rest) ← value? e fuel e.limit (skipBlanks rest)
      return (← p.addValue parts v, rest)
    | _ => none

/-- Reads the lines of a document. -/
def lines? (e : Edition) : Nat → Progress → Text → Option Progress
  | 0, _, _ => none
  | fuel + 1, p, t => do
    let (p, rest) ←
      match skipBlanks t with
      | [] => some (p, [])
      | '#' :: rest => some (p, '#' :: rest)
      | rest => if (lineEnd? rest).isSome then some (p, rest) else expression? e fuel p rest
    match skipComment rest with
    | [] => return p
    | rest => lines? e fuel p (← lineEnd? rest)

/-- The keys of a document. A byte order mark at its front is skipped. -/
def parse (e : Edition) (t : Text) : Option Entries :=
  let body := if t.head? = some '\ufeff' then t.tail else t
  (lines? e (2 * body.length + 2) {} body).map Progress.root

end Offside.Toml
