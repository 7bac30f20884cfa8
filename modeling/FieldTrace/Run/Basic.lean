import FieldTrace.Mapping.Site
import FieldTrace.Run.Cache
import FieldTrace.Run.Settings

/-! # Analysis runs

A run holds the settings of an analysis, its cache, its counters and its cancellation token. An
analysis is a computation that changes the run and may fail; a failure keeps what the run has
recorded so far. -/

namespace FieldTrace

/-! ### Failures -/

/-- Why an analysis, or a part of it, ends early. -/
inductive Failure where
  | cancelled (message : String)
  | unresolved (message : String)
  | broken (message : String)
  deriving DecidableEq, Repr

namespace Failure

/-- The text of a failure. -/
def message : Failure → String
  | cancelled m => m
  | unresolved m => m
  | broken m => m

/-- Cancellation ends the whole analysis; other failures end a branch. -/
def isCancellation : Failure → Bool
  | cancelled _ => true
  | _ => false

/-- The analysis has been cancelled. -/
def analysisCancelled : Failure := cancelled "analysis cancelled"

end Failure

/-! ### Cancellation -/

/-- A cancellation flag that counts how often it is polled, and may set itself at a given poll. -/
structure Token where
  isCancelled : Bool := false
  polls : Nat := 0
  cancelAfter : Option Nat := none
  deriving DecidableEq, Repr, Inhabited

namespace Token

/-- Request cancellation. -/
def cancel (t : Token) : Token := { t with isCancelled := true }

/-- Count a poll; the first one after `cancelAfter` of them sets the flag. -/
def poll (t : Token) : Token :=
  { t with
    polls := t.polls + 1
    isCancelled := t.isCancelled || t.cancelAfter.any (fun n => decide (n < t.polls + 1)) }

end Token

/-! ### What is remembered -/

/-- What a run remembers the answer to. -/
inductive CacheKey where
  | projectSites
  | methodSites (method : MethodId)
  | typeSites (type : String)
  | crossings (type field : String) (within : Option MethodId)
  | callers (method : MethodId)
  | implementations (method : MethodId)
  | references (field : FieldRef)
  | memberCalls (owner name : String)
  deriving DecidableEq, Repr

namespace CacheKey

/-- What the answer is. -/
abbrev Answer : CacheKey → Type
  | projectSites => List MappingSite
  | methodSites _ => List MappingSite
  | typeSites _ => List MappingSite
  | crossings _ _ _ => List Crossing
  | callers _ => List Reference
  | implementations _ => List MethodId
  | references _ => List Reference
  | memberCalls _ _ => List Reference

instance : Grouped CacheKey where
  group
    | projectSites => "mapping_sites"
    | methodSites _ => "mapping_sites"
    | typeSites _ => "mapping_sites"
    | crossings _ _ _ => "crossings"
    | callers _ => "callers"
    | implementations _ => "implementations"
    | references _ => "references"
    | memberCalls _ _ => "member_calls"

end CacheKey

/-! ### Runs -/

/-- The state of a run. `indexCalls` counts the questions put to the index. -/
structure Run where
  settings : Settings := {}
  token : Token := {}
  cache : Cache CacheKey CacheKey.Answer := {}
  counters : Table String Int := .empty
  indexCalls : Nat := 0

namespace Run

/-- Add to a counter. -/
def count (r : Run) (name : String) (amount : Int) : Run :=
  { r with counters := r.counters.alter name (fun n => n.getD 0 + amount) }

/-- Request cancellation. -/
def cancel (r : Run) : Run := { r with token := r.token.cancel }

/-- Forget all results and counts of the cache. -/
def clearCache (r : Run) : Run := { r with cache := {} }

end Run

/-- A computation on a run that may fail. -/
abbrev Analysis := ExceptT Failure (StateM Run)

namespace Analysis

/-- Poll the cancellation token. -/
def checkpoint : Analysis Unit := do
  modify (fun r => { r with token := r.token.poll })
  if (← get).token.isCancelled then throw .analysisCancelled

/-- Add to a counter. -/
def count (name : String) (amount : Int) : Analysis Unit := modify (fun r => r.count name amount)

/-- The remembered answer to a question, or the one that `compute` gives. -/
def cached (k : CacheKey) (compute : Analysis k.Answer) : Analysis k.Answer :=
  Cache.getOrCompute Run.cache (fun f r => { r with cache := f r.cache }) k compute

/-- The result of a branch, or none if it fails; cancellation is passed on. -/
def attempt {α : Type} (branch : Analysis α) : Analysis (Option α) :=
  tryCatch (do return some (← branch))
    (fun failure => if failure.isCancellation then throw failure else return none)

/-- Run an analysis. -/
def runOn {α : Type} (r : Run) (a : Analysis α) : Except Failure α × Run := a.run r

end Analysis

end FieldTrace
