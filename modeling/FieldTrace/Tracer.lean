import FieldTrace.Hierarchy.Build
import FieldTrace.Mapping.Resolution

/-! # Analyses of a seed field

Each analysis starts a run of its own, with given settings and cancellation token, and ends with a
result or a failure and the final state of the run. -/

namespace FieldTrace

namespace Tracer

variable (a : IndexAccess) (settings : Settings) (token : Token) (seed : FieldRef)

/-- Start a run. -/
def start {α : Type} (analysis : Analysis α) : Except Failure α × Run :=
  analysis.runOn { settings := settings, token := token }

/-- The relations of a resolution in order. -/
def sortedRelations (r : Resolution) : List MappingRelation :=
  stableSort MappingRelation.lt r.relations

/-- The fields paired with the seed, in order. -/
def mappingRelations : Except Failure (List MappingRelation) × Run :=
  start settings token do return sortedRelations (← resolveRelations a seed)

/-- The mapping sites that pair fields with the seed, by file and line. -/
def mappingSites : Except Failure (List MappingSite) × Run :=
  start settings token do return stableSort MappingSite.lt (← resolveRelations a seed).sites

/-- The caller tree of the seed. -/
def callHierarchy : Except Failure CallTree × Run := start settings token (buildHierarchy a seed)

end Tracer

end FieldTrace
