import FieldTrace.Mapping.Crossing
import FieldTrace.Total

/-! # Relations of a seed field

The relations of a field are those of all crossings of the types that can be reached from its own by
crossings, each type being expanded once, breadth first. A type whose crossings fail contributes
nothing. -/

namespace FieldTrace

/-- The relations of a seed and the sites that contribute to them, in order of discovery. -/
structure Resolution where
  relations : List MappingRelation := []
  sites : List MappingSite := []
  deriving DecidableEq, Repr

namespace Resolution

/-- Take up a crossing. -/
def add (r : Resolution) (c : Crossing) : Resolution where
  relations := addNew r.relations c.relation
  sites := addNew r.sites c.site

/-- Take up crossings. -/
def addAll (r : Resolution) (cs : List Crossing) : Resolution := cs.foldl add r

/-- The first type of the queue that has not been visited, and the rest of the queue; each type
taken off is preceded by a poll. -/
def nextType (visited : List String) : List String → Analysis (Option (String × List String))
  | [] => return none
  | t :: rest => do
    Analysis.checkpoint
    if visited.contains t then nextType visited rest else return some (t, rest)

variable (a : IndexAccess)

/-- Expand the types of the queue until it is empty, at most `bound` of them. -/
def expand (field : String) : Nat → List String → List String → Resolution → Analysis Resolution
  | 0, _, _, r => return r
  | bound + 1, visited, queue, r => do
    match ← nextType visited queue with
    | none => return r
    | some (t, rest) =>
      Analysis.count "resolver_types" 1
      match ← Analysis.attempt (Crossings.of a t field none) with
      | none => expand field bound (t :: visited) rest r
      | some found =>
        let fresh := (found.map Crossing.nextType).filter (fun n => !(t :: visited).contains n)
        expand field bound (t :: visited) (rest ++ fresh) (r.addAll found)

end Resolution

/-- An upper bound for the number of types that crossings can lead to: the seed's type, the argument
types of calls, and the value types of fields. -/
def Index.typeBound (idx : Index) : Nat :=
  2 + 2 * idx.calls.length + total (idx.types.values.map (fun d => d.fields.size))

/-- Resolve the relations of a seed field; none if the seed is not declared. -/
def resolveRelations (a : IndexAccess) (seed : FieldRef) : Analysis Resolution := do
  match ← a.resolveType seed.declaringType with
  | none => return {}
  | some type =>
    match ← a.fieldOn type seed.name with
    | none => return {}
    | some _ => Resolution.expand a seed.name a.index.typeBound [] [type] {}

end FieldTrace
