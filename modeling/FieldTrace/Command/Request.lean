import FieldTrace.Command.Arguments
import FieldTrace.Text.Integer

/-! # Requests of the command line -/

namespace FieldTrace

/-- The commands by name. -/
inductive CommandName where
  | relations | hierarchy | sites | version
  deriving DecidableEq, Repr

namespace CommandName

/-- The word for a command. -/
def text : CommandName → String
  | relations => "relations"
  | hierarchy => "hierarchy"
  | sites => "sites"
  | version => "version"

/-- The command that a word names. -/
def ofText? (s : String) : Option CommandName :=
  [relations, hierarchy, sites, version].find? (fun c => c.text = s)

end CommandName

/-- What the user asks for. -/
inductive Request where
  | relations (project seed : String)
  | hierarchy (project seed : String) (depth : Option Int) (asJson : Bool)
  | sites (project seed : String)
  | version
  deriving DecidableEq, Repr

/-- The outcome of reading arguments: a request for help, a wrong usage, or what was meant. -/
inductive CommandReading (α : Type) where
  | help
  | wrong
  | meant (a : α)
  deriving DecidableEq, Repr

namespace Request

/-- The option that every command has. -/
def helpOption : OptionSpec := { name := "--help" }

/-- The options of a command. -/
def options : CommandName → List OptionSpec
  | .hierarchy => [
    helpOption, { name := "--max-depth", short := some 'd', takesValue := true },
    { name := "--json" }]
  | _ => [helpOption]

/-- A depth given as an option, which has to be a positive count. -/
def depth? (a : Arguments) : Option (Option Int) :=
  match a.value? "--max-depth" with
  | none => some none
  | some text => do
    let n ← Text.readCount? text
    if n = 0 then none else return some (n : Int)

/-- The request that sorted arguments make. -/
def ofArguments (command : CommandName) (a : Arguments) : Option Request :=
  match command, a.positional with
  | .relations, [project, seed] => some (.relations project seed)
  | .sites, [project, seed] => some (.sites project seed)
  | .hierarchy, [project, seed] => do
    return .hierarchy project seed (← depth? a) (a.has "--json")
  | .version, [] => some .version
  | _, _ => none

/-- Read the arguments of a command. -/
def read (command : CommandName) (args : List String) : CommandReading Request :=
  match Arguments.read (options command) true none args with
  | none => .wrong
  | some a =>
    if a.has "--help" then .help
    else match ofArguments command a with
      | some r => .meant r
      | none => .wrong

end Request

/-- A command line: the command, its arguments, and the options before it. -/
structure CommandLine where
  command : CommandName
  arguments : List String
  verbose : Bool
  logLevel : Option String
  deriving DecidableEq, Repr

namespace CommandLine

/-- The options before the command. -/
def options : List OptionSpec := [
  Request.helpOption, { name := "--log-level", takesValue := true },
  { name := "--verbose", short := some 'v' }]

/-- Read a command line up to the command. -/
def read (args : List String) : CommandReading CommandLine :=
  match Arguments.read options false none args with
  | none => .wrong
  | some a =>
    if a.has "--help" then .help
    else match a.positional with
      | [] => .wrong
      | word :: rest =>
        match CommandName.ofText? word with
        | none => .wrong
        | some command => .meant {
          command := command, arguments := rest, verbose := a.has "--verbose",
          logLevel := (a.value? "--log-level").filter (fun l => l ≠ "") }

end CommandLine

end FieldTrace
