import FieldTrace.Command.Basic
import FieldTrace.Project.Listing

/-! # The program

The command line over a listing of the files, which is read from standard input. -/

namespace FieldTrace

/-- The environment variables that the program reads. -/
def variableNames : List String := [
  "MAPTRACER_MAX_DEPTH", "MAPTRACER_CALLER_LIMIT", "MAPTRACER_CALL_SITE_LIMIT",
  "MAPTRACER_MAPPING_SITE_LIMIT", "MAPTRACER_IMPLEMENTATION_LIMIT", "MAPTRACER_PREFER_NATIVE",
  "MAPTRACER_ENTRY_PATTERNS", "MAPTRACER_LOG_LEVEL", Environment.forbiddingName]

/-- The variables that are set. -/
def readEnvironment : IO Environment := do
  let entries ← variableNames.filterMapM (fun name => do
    return (← IO.getEnv name).map (fun value => (name, value)))
  return .ofList entries

/-- All lines of a stream. -/
partial def readAll (input : IO.FS.Stream) (text : String) : IO String := do
  let line ← input.getLine
  if line.isEmpty then return text else readAll input (text ++ line)

end FieldTrace

open FieldTrace in
/-- Run the command line; the files of the listing stand below the top folder. -/
def main (args : List String) : IO UInt32 := do
  let text ← readAll (← IO.getStdin) ""
  match Listing.read? [] text with
  | none =>
    (← IO.getStderr).putStrLn "The listing on standard input cannot be read."
    return 1
  | some files =>
    let outcome := Command.run { environment := ← readEnvironment, files := files } .patient args
    (← IO.getStdout).putStr outcome.output
    return UInt32.ofNat outcome.exitCode
