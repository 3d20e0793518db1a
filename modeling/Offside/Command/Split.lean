import Offside.Options.Grammar

/-!
# Splitting the arguments

The options that give settings stand before all other arguments. An argument that is such an option
without `=` takes the argument after it along, whatever that looks like; the first argument that is
none of these options, and everything after it, belongs to the command.
-/

namespace Offside.Command

/-- The options that give settings. -/
def settingsFlags : List Bytes :=
  ["--config-path", "--indent-size", "--log-filter", "--log-format"].map Bytes.ofString

/-- How an argument gives a setting. -/
inductive Lead where
  /-- The value follows an equals sign. -/
  | inline
  /-- The value is the next argument. -/
  | separate
  deriving Repr, DecidableEq

/-- Whether and how an argument gives a setting. -/
def lead? (argument : Bytes) : Option Lead :=
  let (name, value) := Options.cutAt Options.equals argument
  if settingsFlags.contains name then some (if value.isSome then .inline else .separate) else none

/-- The arguments that give settings, and those that follow them. -/
def splitLeading : List Bytes → List Bytes × List Bytes
  | [] => ([], [])
  | argument :: rest =>
    match lead? argument with
    | none => ([], argument :: rest)
    | some .inline =>
      let (settings, command) := splitLeading rest
      (argument :: settings, command)
    | some .separate =>
      match rest with
      | [] => ([argument], [])
      | value :: rest =>
        let (settings, command) := splitLeading rest
        (argument :: value :: settings, command)

/-- The arguments of the settings and those of the command, each after the program's name. -/
def split : List Bytes → List Bytes × List Bytes
  | [] => ([], [])
  | program :: rest =>
    let (settings, command) := splitLeading rest
    (program :: settings, program :: command)

end Offside.Command
