import FieldTrace.Distinct
import FieldTrace.Sorting
import FieldTrace.Table
import FieldTrace.Total

/-! # Remembered results

A cache remembers one value for each key; what a key asks for determines the type of its value. Keys
belong to named groups, and hits and misses are counted for each group. A computation that fails
leaves nothing behind, so that it is tried again the next time. -/

namespace FieldTrace

/-- Keys that belong to named groups. -/
class Grouped (κ : Type) where
  group : κ → String

export Grouped (group)

/-- A cache of results. -/
structure Cache (κ : Type) (Value : κ → Type) where
  entries : List ((k : κ) × Value k) := []
  hits : Table String Nat := .empty
  misses : Table String Nat := .empty

/-- The counts of one group. -/
structure CacheCounts where
  hits : Nat
  misses : Nat
  entries : Nat
  deriving DecidableEq, Repr

namespace Cache

variable {κ : Type} {Value : κ → Type} [DecidableEq κ] [Grouped κ]

/-- The value of the first entry with the key. -/
def findIn (k : κ) : List ((k : κ) × Value k) → Option (Value k)
  | [] => none
  | e :: es => if h : e.1 = k then some (h ▸ e.2) else findIn k es

/-- Write the value of a key, in its place if it is present and last otherwise. -/
def storeIn (k : κ) (v : Value k) : List ((k : κ) × Value k) → List ((k : κ) × Value k)
  | [] => [⟨k, v⟩]
  | e :: es => if e.1 = k then ⟨k, v⟩ :: es else e :: storeIn k v es

variable (c : Cache κ Value)

/-- The remembered value of a key. -/
def find? (k : κ) : Option (Value k) := findIn k c.entries

/-- Is a value remembered? -/
def contains (k : κ) : Bool := (c.find? k).isSome

/-- The number of remembered values. -/
def size : Nat := c.entries.length

/-- Count a hit in the group of a key. -/
def recordHit (k : κ) : Cache κ Value :=
  { c with hits := c.hits.alter (group k) (fun n => n.getD 0 + 1) }

/-- Count a miss in the group of a key. -/
def recordMiss (k : κ) : Cache κ Value :=
  { c with misses := c.misses.alter (group k) (fun n => n.getD 0 + 1) }

/-- Remember a value. -/
def store (k : κ) (v : Value k) : Cache κ Value := { c with entries := storeIn k v c.entries }

/-- The remembered value, or the one that `compute` gives, which is then remembered. The cache is
part of a larger state, which `view` and `update` reach into. -/
def getOrCompute {σ ε : Type} (view : σ → Cache κ Value)
    (update : (Cache κ Value → Cache κ Value) → σ → σ) (k : κ)
    (compute : ExceptT ε (StateM σ) (Value k)) : ExceptT ε (StateM σ) (Value k) := do
  match (view (← get)).find? k with
  | some v =>
    modify (update (fun c => c.recordHit k))
    return v
  | none =>
    modify (update (fun c => c.recordMiss k))
    let v ← compute
    modify (update (fun c => c.store k v))
    return v

/-- The groups that were asked, by name. -/
def groups : List String := stableSort textLt (distinct (c.hits.keys ++ c.misses.keys))

/-- The counts of a group. -/
def counts (g : String) : CacheCounts where
  hits := c.hits.getD g 0
  misses := c.misses.getD g 0
  entries := (c.entries.filter (fun e => group e.1 = g)).length

/-- The counts of all groups together. -/
def total : CacheCounts where
  hits := FieldTrace.total c.hits.values
  misses := FieldTrace.total c.misses.values
  entries := c.size

/-- The counts of each group by name, and last those of all together, under the name `total`; a
group of that name gives way. -/
def stats : List (String × CacheCounts) :=
  (c.groups.filter (fun g => g ≠ "total")).map (fun g => (g, c.counts g)) ++ [("total", c.total)]

end Cache

end FieldTrace
