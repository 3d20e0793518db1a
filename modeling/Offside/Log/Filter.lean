import Offside.Event
import Offside.Text.Alphanumeric

/-!
# Log filters

A filter is a list of directives with commas between them. A directive gives a threshold to the
targets that start with its name, or to all: `level`, `target=level`, or `target` alone, which means
everything. Brackets after the target narrow it down: `[span]`, `[{value}]` or `[span{value}]`, and
`=level` may follow. A level is a name, in any case of the letters, or a number from 0 (off) to 5. Of
the directives that match an event the most specific one decides, and of equal ones the last. A filter
without directives lets errors through and nothing else.

The command hands a filter on to a library for logging, which is not a part of it and whose notation this
is. Events of the command happen outside of all spans, so that a directive about one is only read.
-/

namespace Offside.Log

/-- The greatest detail that is let through; 0 lets nothing through. -/
abbrev Threshold := Nat

/-- The names of the thresholds, from 0 on. -/
def thresholdNames : List String := ["off", "error", "warn", "info", "debug", "trace"]

/-- Lets everything through. -/
def everything : Threshold := 5

/-- A threshold by its number. -/
def thresholdOfNumber? (t : Text) : Option Threshold :=
  let digits := match t with
    | '+' :: rest => rest
    | _ => t
  let n := digits.foldl (fun n c => n * 10 + (c.toNat - '0'.toNat)) 0
  if !digits.isEmpty && digits.all Char.isDigit && n ≤ everything then some n else none

/-- A threshold by its number or by its name. -/
def threshold? (t : Text) : Option Threshold :=
  thresholdOfNumber? t <|> thresholdNames.findIdx? fun name => Text.sameLetters name.toList t

/-- What is logged of the events that a directive is about. -/
structure Directive where
  /-- What the targets start with; nothing means all of them. -/
  target : Option Text := none
  /-- A value that the events carry, by its name. -/
  carrying : Option Text := none
  threshold : Threshold
  /-- Whether the directive asks for more than the events of this program can have: that they happen
  inside a span, or carry a certain value. -/
  futile : Bool := false
  deriving Repr, DecidableEq

/-- A list of directives. -/
abbrev Filter := List Directive

namespace Directive

/-- Whether a directive may start with a character: a letter or digit, or one of a few marks. -/
def starts (c : Char) : Bool := Text.isAlphanumeric c || ['-', ':', '_', '['].contains c

/-- The threshold after an equals sign; nothing there means everything. -/
def level? (t : Text) : Option Threshold := if t.isEmpty then some everything else threshold? t

/-- A directive of one word: a threshold for all targets, or a target. -/
def ofWord (t : Text) : Directive :=
  match threshold? t with
  | some threshold => { threshold }
  | none => { target := some t, threshold := everything }

/-- What stands between square brackets, after the first of them: a span, a value in braces, or both.
Gives whether events of this program can match, the name of the value, and what follows. -/
def condition? (t : Text) : Option (Bool × Option Text × Text) :=
  let span := t.takeWhile fun c => c != ']' && c != '{'
  match t.drop span.length with
  | ']' :: rest => some (false, none, rest)
  | '{' :: rest =>
    match Text.cutAt '}' rest with
    | some (field, ']' :: rest) =>
      if field.isEmpty then none
      else some (span.isEmpty && !field.contains '=', some field, rest)
    | _ => none
  | _ => none

/-- Reads a directive. Blanks are not skipped: they belong to a word or a level, and a directive that
starts with them can be a word or hold brackets, but has no level and matches nothing. -/
def parse (t : Text) : Option Directive :=
  let u := Text.trimStart t
  let indented := u.length < t.length
  let name := u.takeWhile fun c => c != '=' && c != '['
  if !u.head?.any starts then none
  else
    match u.drop name.length with
    | [] => some (ofWord t)
    | '=' :: level =>
      if indented then none else (level? level).map fun threshold => { target := some name, threshold }
    | rest => do
      let (possible, carrying, rest) ← condition? rest.tail
      let threshold ←
        match rest with
        | '=' :: level => if indented then none else level? level
        | _ => if (Text.trimStart rest).isEmpty then some everything else none
      return {
        target := if name.isEmpty then none else some name
        carrying, threshold
        futile := indented || !possible }

/-- Whether the directive says something about an event. -/
def covers (d : Directive) (e : Event) : Bool :=
  !d.futile && d.target.all (·.isPrefixOf e.target.toList) &&
    d.carrying.all fun name => name == "message".toList || e.fields.any (·.1.toList == name)

/-- Whether another directive is at least as specific: by the length of its target, then by whether
it names a value, and then by the order of those names. -/
def atMost (d other : Directive) : Bool :=
  let size (d : Directive) : Nat := (d.target.map fun t => Text.byteSize t + 1).getD 0
  if size d != size other then size d < size other
  else
    match d.carrying, other.carrying with
    | none, _ => true
    | some _, none => false
    | some a, some b => a == b || List.lex a b

end Directive

namespace Filter

/-- Lets nothing through. -/
def off : Filter := [{ threshold := 0 }]

/-- Reads a filter; none if a directive is malformed. -/
def parse (t : Text) : Option Filter :=
  (((Text.splitOn ',' t).filter (· != [])).mapM Directive.parse).map fun directives =>
    if directives.isEmpty then [{ threshold := 1 }] else directives

/-- The directive that decides about an event. -/
def decisive? (f : Filter) (e : Event) : Option Directive :=
  f.foldl
    (fun best d =>
      if !d.covers e then best
      else
        match best with
        | none => some d
        | some b => if b.atMost d then some d else some b)
    none

/-- Whether an event is let through. -/
def admits (f : Filter) (e : Event) : Bool :=
  match decisive? f e with
  | none => false
  | some d => e.severity.detail ≤ d.threshold

end Filter

end Offside.Log
