import FieldTrace.Mapping.Detection

/-! # Crossings

A traced field crosses a mapping site directly if both sides hold it. It crosses nested if one side
holds its type in a field that the other side holds too, and the two held types share a field
name. -/

namespace FieldTrace

namespace Crossings

variable (a : IndexAccess)

/-- The sites with a type on one side, in the whole project or in one method. -/
def sitesFor (type : String) (within : Option MethodId) : Analysis (List MappingSite) :=
  match within with
  | none => Detection.ofType a type
  | some m => do
    let sites ← Detection.inMethod a m
    return sites.filter (fun s => s.involves type)

/-- The other side of a site that maps a type to a different one. -/
def otherSide (type : String) (site : MappingSite) : Option String :=
  (site.counterpart type).filter (fun other => other ≠ type)

/-- The type that a field leads to: that of its elements if it has any. -/
def valueType (f : FieldDecl) : String :=
  (f.elementType.filter (fun e => e ≠ "")).getD f.typeName

/-- A relation between the fields of one name on the two sides of a site. -/
def relate (kind : RelationKind) (site : MappingSite) (field : String) : MappingRelation :=
  { kind := kind, source := ⟨site.source, field⟩, target := ⟨site.target, field⟩ }

/-- Have the two types a field name in common? -/
def sharesFieldName (first second : String) : Analysis Bool := do
  let names := (← a.fieldsOf first).map FieldRef.name
  if names.isEmpty then return false
  let others ← a.fieldsOf second
  return others.any (fun f => names.contains f.name)

/-- The direct crossing of a field at a site. -/
def directAt (type field : String) (site : MappingSite) : Analysis (Option Crossing) :=
  match otherSide type site with
  | none => return none
  | some other => do
    match ← a.fieldOn other field with
    | none => return none
    | some _ =>
      return some {
        site := site, relation := relate .direct site field, continueAt := ⟨other, field⟩,
        nextType := other }

/-- The nested crossing of a type through one of its holders at a site. -/
def nestedAt (type : String) (holder : FieldDecl) (site : MappingSite) :
    Analysis (Option Crossing) :=
  match otherSide holder.declaringType site with
  | none => return none
  | some other => do
    match ← a.fieldOn other holder.name with
    | none => return none
    | some counterpart =>
      if ← sharesFieldName a type (valueType counterpart) then
        return some {
          site := site, relation := relate .nested site holder.name,
          continueAt := ⟨other, holder.name⟩, nextType := valueType counterpart }
      else return none

/-- The crossings that some step finds at each of a list of places. -/
def collect {α : Type} (step : α → Analysis (List Crossing)) : List α → Analysis (List Crossing)
  | [] => return []
  | x :: xs => do
    let first ← step x
    let rest ← collect step xs
    return first ++ rest

/-- The direct crossings of a field. -/
def direct (type field : String) (within : Option MethodId) : Analysis (List Crossing) := do
  match ← a.fieldOn type field with
  | none => return []
  | some _ =>
    let sites ← sitesFor a type within
    collect (fun s => do return (← directAt a type field s).toList) sites

/-- The nested crossings of a type. -/
def nested (type : String) (within : Option MethodId) : Analysis (List Crossing) := do
  let holders ← a.containersOf type
  collect
    (fun h => do
      let sites ← sitesFor a h.declaringType within
      collect (fun s => do return (← nestedAt a type h s).toList) sites)
    holders

/-- Search for the crossings of a field. -/
def search (type field : String) (within : Option MethodId) : Analysis (List Crossing) := do
  let first ← direct a type field within
  let rest ← nested a type within
  return first ++ rest

/-- The crossings of a field, direct ones first, each in order of discovery. -/
def of (type field : String) (within : Option MethodId) : Analysis (List Crossing) :=
  Analysis.cached (.crossings type field within) (search a type field within)

end Crossings

end FieldTrace
