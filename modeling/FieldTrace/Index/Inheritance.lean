import FieldTrace.Distinct
import FieldTrace.Index.Declaration

/-! # Inheritance

The declared supertypes are the edges of a graph whose nodes are the declared types and the external
names they extend. Supertypes are listed by distance. -/

namespace FieldTrace

/-! ### Breadth-first levels of a graph -/

/-- The nodes first reached by one more step, level by level, in at most `bound` levels. -/
def levels (next : String → List String) : Nat → List String → List String → List (List String)
  | 0, _, _ => []
  | bound + 1, seen, frontier =>
    let fresh := distinct ((frontier.flatMap next).filter (fun n => !seen.contains n))
    if fresh.isEmpty then [] else fresh :: levels next bound (seen ++ fresh) fresh

/-- The levels around a node, which is in none of them. -/
def levelsFrom (next : String → List String) (bound : Nat) (start : String) : List (List String) :=
  levels next bound [start] [start]

/-- Declared types by name, in registration order. -/
abbrev TypeTable := Table String TypeDecl

namespace TypeTable

variable (types : TypeTable)

/-- The declared supertypes of a type other than itself. -/
def directSupertypes (name : String) : List String :=
  match types.get? name with
  | some d => d.supertypes.filter (fun n => n ≠ name)
  | none => []

/-- The types that declare a name as their supertype. -/
def directSubtypes (name : String) : List String :=
  types.keys.filter (fun n => (directSupertypes types n).contains name)

/-- Registration order, with names that are not registered last and by text. -/
def registeredBefore (a b : String) : Bool :=
  let i := types.keys.idxOf a
  let j := types.keys.idxOf b
  decide (i < j) || (i == j && textLt a b)

/-- All supertypes of a type, the nearest first. -/
def supertypesOf (name : String) : List String :=
  ((levelsFrom (directSupertypes types) (types.size + 1) name).map
    (stableSort (registeredBefore types))).flatten

/-- All declared subtypes of a type in registration order. -/
def subtypesOf (name : String) : List String :=
  let below := (levelsFrom (directSubtypes types) (types.size + 1) name).flatten
  types.keys.filter (fun n => below.contains n)

/-- Is the first type the second or one of its subtypes? -/
def isSubtype (name ancestor : String) : Bool :=
  name = ancestor || (supertypesOf types name).contains ancestor

/-- The type and its supertypes, the nearest first. -/
def lineage (name : String) : List String := name :: supertypesOf types name

end TypeTable

end FieldTrace
