import Offside.Text.Utf8
import Offside.Text.Visible

/-!
# Options on a command line

A grammar lists the options a command line may hold and the operands it takes. Arguments are read
from left to right.

* `--name value`, `--name=value`, `-n value`, `-nvalue` and `-n=value` give an option its value.
* A value given separately, and an operand, are looked at when the next option or operand is accepted
  or when the arguments end: an argument that fits nowhere is reported before them.
* An option that takes no value asks for something else than a run and ends the reading.
* After `--` every argument is an operand, and a lone `-` always is one.

These are the rules of a library for command lines, which the command uses and does not define; they are
given as far as the grammars of the command and of its settings can meet them.
-/

namespace Offside.Options

/-- Why a command line is refused. -/
inductive Fault where
  | unexpected (argument : Text)
  | missingValue (option : String)
  | repeated (option : String)
  | unneededValue (value : Text) (option : String)
  | badValue (value : Text) (option : String)
  | notText
  deriving Repr, DecidableEq

/-- The first line of what is said about a refused command line. -/
def Fault.message : Fault → Text
  | unexpected argument =>
    "error: unexpected argument '".toList ++ Text.visible argument ++ "' found".toList
  | missingValue option =>
    s!"error: a value is required for '{option}' but none was supplied".toList
  | repeated option => s!"error: the argument '{option}' cannot be used multiple times".toList
  | unneededValue value option =>
    "error: unexpected value '".toList ++ Text.visible value ++
      s!"' for '{option}' found; no more were expected".toList
  | badValue value option =>
    "error: invalid value '".toList ++ Text.visible value ++ s!"' for '{option}'".toList
  | notText => "error: invalid UTF-8 was detected in one or more arguments".toList

/-- Why the reading of a command line ends early. -/
inductive Stop where
  | fault (fault : Fault)
  | help
  | version
  deriving Repr, DecidableEq

/-- Puts a value into what has been read so far. -/
abbrev Store (α : Type) := Bytes → α → Except Fault α

/-- What an option does. -/
inductive Action (α : Type) where
  /-- Takes a value. -/
  | take (store : Store α)
  /-- Ends the reading. -/
  | ask (stop : Stop)

/-- An option. -/
structure Rule (α : Type) where
  long : String
  short : Option Char := none
  /-- How messages write the option. -/
  shown : String
  action : Action α

/-- The options and the operands of a command line. -/
structure Grammar (α : Type) where
  rules : List (Rule α)
  operands : List (Store α) := []

/-- A value that has been announced and not been stored yet. -/
inductive Pending (α : Type) where
  | nothing
  /-- The option waits for its value. -/
  | awaiting (shown : String) (store : Store α)
  /-- The value is there. -/
  | holding (store : Store α) (value : Bytes)

/-- Where the reading of a command line stands. -/
structure State (α : Type) where
  read : α
  pending : Pending α := .nothing
  /-- The operands still to come. -/
  operands : List (Store α)
  /-- Whether `--` has been read. -/
  ended : Bool := false

/-- The byte that options start with. -/
def dash : UInt8 := 0x2d

/-- The byte between an option and its value. -/
def equals : UInt8 := 0x3d

/-- The bytes before the first `b`, and those after it. -/
def cutAt (b : UInt8) : Bytes → Bytes × Option Bytes
  | [] => ([], none)
  | c :: rest => if c = b then ([], some rest) else (c :: (cutAt b rest).1, (cutAt b rest).2)

/-- The name and the value of `--name` or `--name=value`. -/
def long? : Bytes → Option (Bytes × Option Bytes)
  | a :: b :: c :: rest => if a = dash ∧ b = dash then some (cutAt equals (c :: rest)) else none
  | _ => none

/-- The letters after a single dash. -/
def cluster? : Bytes → Option Bytes
  | a :: b :: rest => if a = dash ∧ b ≠ dash then some (b :: rest) else none
  | _ => none

/-- The value that follows a letter of a cluster, if any. -/
def clusterValue : Bytes → Option Bytes
  | [] => none
  | b :: rest => if b = equals then some rest else some (b :: rest)

namespace State

variable {α : Type}

/-- Stores the value that is pending. -/
def settle (s : State α) : Except Fault (State α) :=
  match s.pending with
  | .nothing => .ok s
  | .awaiting shown _ => .error (.missingValue shown)
  | .holding store value => do
    let read ← store value s.read
    return { s with read, pending := .nothing }

/-- Reads an operand. -/
def operand (s : State α) (argument : Bytes) : Except Fault (State α) :=
  match s.operands with
  | [] => .error (.unexpected (Utf8.lossy argument))
  | store :: later => do
    let settled ← s.settle
    return { settled with pending := .holding store argument, operands := later }

/-- Reads an option, with the value that stands in the same argument, if any. -/
def option (s : State α) (rule : Rule α) (value : Option Bytes) : Except Stop (State α) := do
  let settled ← s.settle.mapError .fault
  match rule.action with
  | .ask stop => throw stop
  | .take store =>
    match value with
    | none => return { settled with pending := .awaiting rule.shown store }
    | some value =>
      let read ← (store value settled.read).mapError .fault
      return { settled with read }

end State

namespace Grammar

variable {α : Type}

/-- Reads `--name` or `--name=value`. -/
def long (g : Grammar α) (s : State α) (name : Bytes) (value : Option Bytes) :
    Except Stop (State α) :=
  match g.rules.find? (fun rule => Bytes.ofString rule.long == name) with
  | none => .error (.fault (.unexpected ('-' :: '-' :: Utf8.lossy name)))
  | some rule =>
    match rule.action, value with
    | .ask _, some value => .error (.fault (.unneededValue (Utf8.lossy value) rule.shown))
    | _, _ => s.option rule value

/-- Reads a cluster of letters. Every option either takes the rest of the cluster as its value or ends
the reading, so only the first letter matters. -/
def cluster (g : Grammar α) (s : State α) (letters : Bytes) : Except Stop (State α) :=
  match Utf8.first letters with
  | none => .error (.fault (.unexpected ('-' :: Utf8.lossy letters)))
  | some c =>
    match g.rules.find? (fun rule => rule.short == some c) with
    | none => .error (.fault (.unexpected ['-', c]))
    | some rule => s.option rule (clusterValue (letters.drop c.utf8Size))

/-- Reads one argument. -/
def next (g : Grammar α) (s : State α) (argument : Bytes) : Except Stop (State α) :=
  if s.ended then (s.operand argument).mapError .fault
  else if argument = [dash, dash] then .ok { s with ended := true }
  else
    match long? argument, cluster? argument, s.pending with
    | some (name, value), _, _ => g.long s name value
    | none, some letters, _ => g.cluster s letters
    | none, none, .awaiting _ store => .ok { s with pending := .holding store argument }
    | none, none, _ => (s.operand argument).mapError .fault

/-- Reads arguments, from what is there before the first. -/
def parse (g : Grammar α) (start : α) (arguments : List Bytes) : Except Stop α := do
  let final ← arguments.foldlM g.next { read := start, operands := g.operands }
  let settled ← final.settle.mapError .fault
  return settled.read

end Grammar

/-- Reads a value as text. -/
def asText (value : Bytes) : Except Fault Text :=
  match Utf8.decode value with
  | some t => .ok t
  | none => .error .notText

/-- Stores a value in a place that may be filled once. -/
def once {α β : Type} (shown : String) (place : α → Option β) (fill : β → α → α)
    (read : Bytes → Except Fault β) : Store α := fun value a =>
  if (place a).isSome then .error (.repeated shown) else (read value).map (fill · a)

end Offside.Options
