import FieldTrace.Text.Split

/-! # Options and arguments

An argument that begins with a dash and is longer than one dash is an option. A long option has two
dashes and may carry its value after an equals sign; short options may stand together after one
dash, and the rest after one that takes a value is its value. Two dashes alone end the options. -/

namespace FieldTrace

/-- An option of a command. -/
structure OptionSpec where
  name : String
  short : Option Char := none
  takesValue : Bool := false
  deriving DecidableEq, Repr

/-- The options that were given, in order, by long name and with their values, and the other
arguments. -/
structure Arguments where
  options : List (String × String) := []
  positional : List String := []
  deriving DecidableEq, Repr

namespace Arguments

/-- What one argument says: options with their values, and an option whose value comes next. -/
structure Reading where
  options : List (String × String) := []
  awaiting : Option String := none

/-- The short options of an argument. -/
def readShort (specs : List OptionSpec) : List Char → Option Reading
  | [] => some {}
  | c :: cs => do
    let spec ← specs.find? (fun s => s.short = some c)
    if spec.takesValue then
      if cs.isEmpty then return { awaiting := some spec.name }
      else return { options := [(spec.name, String.ofList cs)] }
    else
      let rest ← readShort specs cs
      return { rest with options := (spec.name, "") :: rest.options }

/-- A long option, perhaps with a value. -/
def readLong (spec : OptionSpec) (value : Option String) : Option Reading :=
  match spec.takesValue, value with
  | true, some v => some { options := [(spec.name, v)] }
  | true, none => some { awaiting := some spec.name }
  | false, some _ => none
  | false, none => some { options := [(spec.name, "")] }

/-- What an option argument says, if the option is known and used rightly. -/
def readOption (specs : List OptionSpec) (arg : String) : Option Reading :=
  let (name, value) := match Text.splitFirst '=' arg with
    | some (name, value) => (name, some value)
    | none => (arg, none)
  match specs.find? (fun s => s.name = name) with
  | some spec => readLong spec value
  | none => if Text.startsWith arg "--" then none else readShort specs (arg.toList.drop 1)

/-- Is the argument an option? -/
def isOption (arg : String) : Bool := Text.startsWith arg "-" && arg ≠ "-"

/-- Add options in front. -/
def withOptions (given : List (String × String)) (a : Arguments) : Arguments :=
  { a with options := given ++ a.options }

/-- Add a positional argument in front. -/
def withPositional (arg : String) (a : Arguments) : Arguments :=
  { a with positional := arg :: a.positional }

/-- Sort out arguments. Unless options may be mixed with others, they end at the first argument that
is none; `awaiting` is an option whose value comes next. -/
def read (specs : List OptionSpec) (mixed : Bool) (awaiting : Option String) :
    List String → Option Arguments
  | [] => if awaiting.isSome then none else some {}
  | arg :: rest =>
    match awaiting with
    | some name => (read specs mixed none rest).map (withOptions [(name, arg)])
    | none =>
      if arg = "--" then some { positional := rest }
      else if isOption arg then do
        let r ← readOption specs arg
        return (← read specs mixed r.awaiting rest).withOptions r.options
      else if mixed then (read specs mixed none rest).map (withPositional arg)
      else some { positional := arg :: rest }

variable (a : Arguments)

/-- Was the option given? -/
def has (name : String) : Bool := a.options.any (fun o => o.1 = name)

/-- The last value given for the option. -/
def value? (name : String) : Option String :=
  ((a.options.filter (fun o => o.1 = name)).getLast?).map Prod.snd

end Arguments

end FieldTrace
