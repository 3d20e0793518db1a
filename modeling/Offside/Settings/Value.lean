import Offside.Settings.Basic

/-!
# Values of settings

A setting arrives as a value whose kind depends on where it comes from; only some kinds fit a
setting. A `Layer` holds what one place gives for the three settings, and of two layers the later one
wins, setting by setting. Tables are the exception: a later table adds its keys to an earlier one.
-/

namespace Offside.Settings

mutual

/-- A value of a setting. Most kinds that fit no setting carry nothing. -/
inductive Value where
  /-- What stands in the place of a number that is infinite, or is none. -/
  | nothing
  | boolean
  | integer (n : Int)
  | real
  | text (t : Text)
  | list
  | table (fields : Fields)
  deriving Repr, DecidableEq

/-- The keys of a table and their values. -/
inductive Fields where
  | nil
  | cons (key : Text) (value : Value) (rest : Fields)
  deriving Repr, DecidableEq

end

namespace Fields

/-- The value under a key. -/
def get? (key : Text) : Fields → Option Value
  | nil => none
  | cons k v rest => if k = key then some v else rest.get? key

/-- Puts a value under a key, in the place of the one that was there. -/
def put (key : Text) (value : Value) : Fields → Fields
  | nil => cons key value nil
  | cons k v rest => if k = key then cons k value rest else cons k v (rest.put key value)

/-- A table with one key. -/
def single (key : Text) (value : Value) : Fields := cons key value nil

end Fields

mutual

/-- The later value, or both tables in one. -/
def Value.overlay : Value → Value → Value
  | earlier, .table later =>
    match earlier with
    | .table fields => .table (Fields.overlay fields later)
    | _ => .table later
  | _, later => later

/-- Puts the values of a later table over those of an earlier one, key by key. -/
def Fields.overlay : Fields → Fields → Fields
  | earlier, .nil => earlier
  | earlier, .cons key value later =>
    let prevailing := match earlier.get? key with
      | some old => Value.overlay old value
      | none => value
    Fields.overlay (earlier.put key prevailing) later

end

namespace Value

/-- A size is an integer from 0 to 2^64 - 1. -/
def size? : Value → Option Nat
  | integer n => if 0 ≤ n ∧ n.toNat < Nat.pow 2 64 then some n.toNat else none
  | _ => none

/-- The text that a value is, if it is one. -/
def text? : Value → Option Text
  | text t => some t
  | _ => none

/-- A format is given by its exact name, or by a table with nothing under that name. -/
def format? : Value → Option LogFormat
  | text t => LogFormat.ofName? t
  | table (.cons key nothing .nil) => LogFormat.ofName? key
  | _ => none

end Value

/-- What one place gives for the settings. -/
structure Layer where
  indentSize : Option Value := none
  logFilter : Option Value := none
  logFormat : Option Value := none
  deriving Repr, DecidableEq

namespace Layer

/-- What a table gives for the settings; its other keys mean nothing. -/
def ofFields (fields : Fields) : Layer where
  indentSize := fields.get? "indent_size".toList
  logFilter := fields.get? "log_filter".toList
  logFormat := fields.get? "log_format".toList

/-- Settings as a layer that gives all three. -/
def ofSettings (s : Settings) : Layer where
  indentSize := some (.integer s.indentSize)
  logFilter := some (.text s.logFilter)
  logFormat := some (.text s.logFormat.name.toList)

/-- Of two values for a setting, either of which may be missing, the one that prevails. -/
def prevailing? : Option Value → Option Value → Option Value
  | some earlier, some later => some (earlier.overlay later)
  | earlier, none => earlier
  | none, later => later

/-- The later layer where it gives a value, and the earlier one elsewhere. -/
def overlay (earlier later : Layer) : Layer where
  indentSize := prevailing? earlier.indentSize later.indentSize
  logFilter := prevailing? earlier.logFilter later.logFilter
  logFormat := prevailing? earlier.logFormat later.logFormat

/-- The settings that a layer gives, if it gives all three and each value fits. -/
def settings? (l : Layer) : Option Settings := do
  return {
    indentSize := ← (← l.indentSize).size?
    logFilter := ← (← l.logFilter).text?
    logFormat := ← (← l.logFormat).format? }

end Layer

end Offside.Settings
