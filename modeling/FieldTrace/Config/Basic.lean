import FieldTrace.Config.Environment
import FieldTrace.Run.Settings
import FieldTrace.Text.Case
import FieldTrace.Text.Integer
import FieldTrace.Text.Quoted
import FieldTrace.Text.Split

/-! # Configuration

The limits and options of an analysis are read from environment variables. A variable that is
missing or blank leaves the default. -/

namespace FieldTrace

/-- A variable with an unusable value. -/
inductive ConfigError where
  | notInteger (name value : String)
  | belowOne (name : String) (value : Int)
  | notBoolean (name value : String)
  | limit (error : LimitError)
  deriving DecidableEq, Repr

/-- What is wrong with the variable. -/
def ConfigError.message : ConfigError → String
  | notInteger name value => name ++ " must be an integer, got " ++ Text.quote value
  | belowOne name value => name ++ " must be >= 1, got " ++ toString value
  | notBoolean name value => name ++ " must be a boolean, got " ++ Text.quote value
  | limit e => e.message

namespace Config

variable (env : Environment)

/-- The value of a variable, unless it is blank. -/
def raw? (name : String) : Option String := (env.get? name).filter (fun v => Text.trim v ≠ "")

/-- A variable that is a positive integer. -/
def positive (name : String) (default : Int) : Except ConfigError Int :=
  match raw? env name with
  | none => .ok default
  | some text =>
    match Text.readInteger? text with
    | none => .error (.notInteger name text)
    | some n => if n < 1 then .error (.belowOne name n) else .ok n

/-- A variable that is a truth value. -/
def truth (name : String) (default : Bool) : Except ConfigError Bool :=
  match raw? env name with
  | none => .ok default
  | some text =>
    let word := Text.lower (Text.trim text)
    if ["1", "true", "yes", "on"].contains word then .ok true
    else if ["0", "false", "no", "off"].contains word then .ok false
    else .error (.notBoolean name text)

def maxDepth : Except ConfigError Int := positive env "MAPTRACER_MAX_DEPTH" 12

def callerLimit : Except ConfigError Int := positive env "MAPTRACER_CALLER_LIMIT" 300

def callSiteLimit : Except ConfigError Int := positive env "MAPTRACER_CALL_SITE_LIMIT" 100

def mappingSiteLimit : Except ConfigError Int := positive env "MAPTRACER_MAPPING_SITE_LIMIT" 50

def implementationLimit : Except ConfigError Int := positive env "MAPTRACER_IMPLEMENTATION_LIMIT" 50

def preferNativeHierarchy : Except ConfigError Bool := truth env "MAPTRACER_PREFER_NATIVE" true

/-- Additional entry patterns, separated by commas. -/
def entryPatterns : List String :=
  let parts := ((env.getD "MAPTRACER_ENTRY_PATTERNS" "").toList.splitOn ',').map
    (fun cs => String.ofList (Text.trimChars cs))
  parts.filter (fun p => p ≠ "")

/-- The name of the log level. -/
def logLevel : String := Text.upper (env.getD "MAPTRACER_LOG_LEVEL" "WARNING")

/-- The settings of an analysis; a given depth replaces the configured one, which is then not
read. -/
def settings (depth : Option Int) : Except ConfigError Settings := do
  let request : SettingsRequest := {
    maxDepth := ← match depth with
      | some d => pure d
      | none => maxDepth env
    callerLimit := ← callerLimit env
    callSiteLimit := ← callSiteLimit env
    mappingSiteLimit := ← mappingSiteLimit env
    implementationLimit := ← implementationLimit env
    preferNativeHierarchy := ← preferNativeHierarchy env
    extraEntryPatterns := entryPatterns env }
  match request.check with
  | .ok s => return s
  | .error e => throw (.limit e)

end Config

/-! ### Log levels -/

namespace LogLevel

/-- The log levels by name. -/
def names : List (String × Nat) := [
  ("CRITICAL", 50), ("FATAL", 50), ("ERROR", 40), ("WARNING", 30), ("WARN", 30), ("INFO", 20),
  ("DEBUG", 10), ("NOTSET", 0)]

/-- The level of a name in any case. -/
def ofName? (name : String) : Option Nat :=
  (names.find? (fun e => e.1 = Text.upper name)).map Prod.snd

/-- The message for a name that is no level. -/
def unknown (name : String) : String := "Unknown log level: " ++ name

/-- The name of the top logger. -/
def topLogger : String := "maptracer"

/-- The full name of a logger below the top one. -/
def loggerName (name : String) : String :=
  if name = topLogger || Text.startsWith name (topLogger ++ ".") then name
  else topLogger ++ "." ++ name

end LogLevel

end FieldTrace
