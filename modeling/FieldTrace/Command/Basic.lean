import FieldTrace.Command.Request
import FieldTrace.Config.Basic
import FieldTrace.Project.FileTree
import FieldTrace.Run.Job
import FieldTrace.Seed
import FieldTrace.Terminal.JsonView
import FieldTrace.Terminal.TableView
import FieldTrace.Terminal.TreeView
import FieldTrace.Tracer

/-! # The command line

A command prints a report and ends with an exit code: zero for success, one for an error in the
request or the configuration, two for wrong usage, and 130 for a cancelled analysis. -/

namespace FieldTrace

open Terminal (literal)

/-- Where a command runs: the environment, the files and the working folder. -/
structure Surroundings where
  environment : Environment := .empty
  files : FileTree := {}
  working : Place := []

/-- The variables of the environment and of a settings file in the working folder. -/
def Surroundings.variables (w : Surroundings) : Except SettingsFault Environment :=
  w.environment.withBytes
    ((w.files.file? (w.working ++ [".env"])).map (fun f => f.bytes.toList))

/-- What the user does while an analysis runs. `patient` waits, however long it takes. -/
inductive Conduct where
  | patient | cancelsFirst | interrupts
  deriving DecidableEq, Repr

/-- What a command prints, and its exit code. -/
structure Outcome where
  exitCode : Nat
  output : String
  deriving DecidableEq, Repr

/-- A command under way: it prints, and may end early with an exit code. -/
abbrev Command := ExceptT Nat (StateM String)

namespace Command

def success : Nat := 0

def failure : Nat := 1

def wrongUsage : Nat := 2

def cancelled : Nat := 130

/-- The version of the program. -/
def version : String := "maptracer 0.3.0"

/-- Write text as it is. -/
def write (s : String) : Command Unit := modify (fun out => out ++ s)

/-- Print a text on lines of its own. -/
def print (s : String) : Command Unit := write (Terminal.printed s)

/-- End with a message and an exit code. -/
def stop {α : Type} (message : String) (code : Nat) : Command α := do
  print message
  throw code

/-- The text that is shown for a marked one; a fault in its marks ends the command. -/
def shown (s : String) : Command String :=
  match Terminal.shown s with
  | .ok text => return text
  | .error _ => throw failure

/-- The outcome of a command. -/
def outcome (c : Command Unit) : Outcome :=
  match c.run "" with
  | (.ok _, out) => ⟨success, out⟩
  | (.error code, out) => ⟨code, out⟩

/-! ### Preparation -/

variable (w : Surroundings)

/-- The seed that a text names. -/
def seed (text : String) : Command FieldRef :=
  match Seed.parse text with
  | .ok s => return s
  | .error e => stop ("Error: " ++ literal e.message) failure

/-- The configured settings; a given depth replaces the configured one. -/
def settings (depth : Option Int) : Command Settings :=
  match w.variables with
  | .error fault => stop ("Configuration error: " ++ literal fault.message) failure
  | .ok env =>
    match Config.settings env depth with
    | .ok s => return s
    | .error e => stop ("Configuration error: " ++ literal e.message) failure

/-- The index of a project. A path with a null character, or one that is too long, ends the
command. -/
def project (path : String) : Command Index := do
  let root := Place.resolve w.working path
  if path.toList.contains (Char.ofNat 0) || w.files.isTooLong root then throw failure
  match w.files.project root with
  | .error _ => stop ("Error: Project path does not exist: " ++ literal root.text) failure
  | .ok index =>
    if index.stats.files = 0 then print "No Java sources found."
    return index

/-- Say so if the seed is not declared in the project. -/
def warnUnknown (index : Index) (seed : FieldRef) : Command Unit :=
  match index.resolveType seed.declaringType with
  | none => print ("Type " ++ literal seed.declaringType ++ " not found in project.")
  | some type =>
    if (index.types.fieldOn type seed.name).isNone then
      print ("Field " ++ literal seed.name ++ " not found on " ++ literal type ++ ".")
    else pure ()

/-! ### Analyses in the background -/

/-- Where a call for the result of a job stands once the work, which polls a token, has ended under
some conduct of the user. -/
def jobResult {α : Type} (conduct : Conduct) (work : Token → Except Failure α) :
    JobStage Failure α :=
  let idle : Job Failure α := {}
  match conduct with
  | .patient => (idle.start.1.finish 0 (work {})).ask.2
  | .cancelsFirst => (idle.cancel.start.1.finish 0 (work ({} : Token).cancel)).ask.2
  | .interrupts => (idle.start.1.cancel.finish 0 (work ({} : Token).cancel)).ask.2

/-- The result of an analysis, unless it is cancelled. -/
def await {α : Type} (conduct : Conduct) (work : Token → Except Failure α × Run) : Command α :=
  match jobResult conduct (fun token => (work token).1) with
  | .ended (.value v) => return v
  | .ended (.failed (.cancelled _)) | .ended .cancelled => stop "Analysis cancelled" cancelled
  | _ => throw failure

/-! ### Commands -/

variable (conduct : Conduct)

/-- List the relations of a seed. -/
def relations (path text : String) : Command Unit := do
  let seed ← seed text
  let settings ← settings w none
  let index ← project w path
  warnUnknown index seed
  let found ← await conduct (fun token =>
    Tracer.mappingRelations { index := index } settings token seed)
  if found.isEmpty then print ("No mapping relations found for " ++ literal seed.text ++ ".")
  else
    let title ← shown (Terminal.relationTitle ++ ": " ++ seed.text)
    write (Terminal.relationTable title found).render
    print ("\n" ++ toString found.length ++ " relation(s)")

/-- List the mapping sites of a seed. -/
def sites (path text : String) : Command Unit := do
  let seed ← seed text
  let settings ← settings w none
  let index ← project w path
  warnUnknown index seed
  let found ← await conduct (fun token =>
    Tracer.mappingSites { index := index } settings token seed)
  if found.isEmpty then print ("No mapping sites found for " ++ literal seed.text ++ ".")
  else
    let title ← shown (Terminal.siteTitle ++ ": " ++ seed.text)
    write (Terminal.siteTable title found).render

/-- The line below a call tree. -/
def treeSummary (settings : Settings) (tree : CallTree) : String :=
  let nodes := tree.nodes
  let entryPoints := nodes.filter (fun n => n.category = .entryPoint)
  "\n" ++ toString nodes.length ++ " node(s), " ++ toString entryPoints.length
    ++ " entry point(s), max depth " ++ toString settings.maxDepth

/-- Show the caller tree of a seed. -/
def hierarchy (path text : String) (depth : Option Int) (asJson : Bool) : Command Unit := do
  let seed ← seed text
  let settings ← settings w depth
  let index ← project w path
  if !asJson then warnUnknown index seed
  let tree ← await conduct (fun token =>
    Tracer.callHierarchy { index := index } settings token seed)
  if asJson then write ((Terminal.jsonTree tree).render ++ "\n")
  else
    write (Terminal.renderTree false tree)
    print (treeSummary settings tree)

/-- Carry out a request. -/
def perform : Request → Command Unit
  | .relations path seed => relations w conduct path seed
  | .hierarchy path seed depth asJson => hierarchy w conduct path seed depth asJson
  | .sites path seed => sites w conduct path seed
  | .version => write (version ++ "\n")

/-- The log level that is asked for, or else the configured one. -/
def logLevel (line : CommandLine) : Command String :=
  if line.verbose then return "DEBUG"
  else match line.logLevel, w.variables with
    | some level, _ => return level
    | none, .ok env => return Config.logLevel env
    | none, .error _ => throw failure

/-- Check the log level. -/
def checkLogLevel (line : CommandLine) : Command Unit := do
  let level ← logLevel w line
  if (LogLevel.ofName? level).isNone then
    stop ("Error: " ++ literal (LogLevel.unknown level)) failure

/-- Go on with what was read; help and wrong usage end the command. -/
def proceed {α : Type} (reading : CommandReading α) (next : α → Command Unit) : Command Unit :=
  match reading with
  | .help => pure ()
  | .wrong => throw wrongUsage
  | .meant a => next a

/-- Run a command line. -/
def run (args : List String) : Outcome :=
  outcome do
    proceed (CommandLine.read args) fun line => do
      checkLogLevel w line
      proceed (Request.read line.command line.arguments) (perform w conduct)

end Command

end FieldTrace
