import FieldTrace.Run.Access

/-! # Detecting mapping sites

A call is a mapping call if it has the name of a transform method and is made on a mapper: its
target's owner or its receiver's type is named like one, or its receiver is the facade of a mapper
factory. Its first two arguments give the source and target types. -/

namespace FieldTrace

namespace Detection

/-- The transform methods. -/
def transformNames : List String := ["map", "mapAsList", "mapAsSet", "mapAsArray"]

/-- The transform methods that take a collection of sources. -/
def collectionNames : List String := ["mapAsList", "mapAsSet", "mapAsArray"]

/-- The method that gives the facade of a mapper factory. -/
def facadeAccessor : String := "getMapperFacade"

/-- The types of class tokens. -/
def classTokenTypes : List String := ["Class", "java.lang.Class"]

/-- Is the type named like a mapper? -/
def namesMapper (type : String) : Bool :=
  ["orika", "Mapper", "Mapping"].any (fun word => Text.occursIn word type)

/-- Is the text or type named like a mapper factory? -/
def namesFactory (text : String) : Bool :=
  ["mapperFactory", "MapperFactory"].any (fun word => Text.occursIn word text)

/-- Is the receiver the facade of a mapper factory? -/
def isFacade (r : Receiver) : Bool :=
  r.kind = .call && r.callName = some facadeAccessor
    && (r.callReceiverText.any namesFactory || r.callReceiverType.any namesFactory)

/-- Is the call a mapping call? -/
def isMappingCall (c : CallSite) : Bool :=
  transformNames.contains c.name
    && (c.resolved.any (fun m => namesMapper m.owner) || c.receiver.staticType.any namesMapper
      || isFacade c.receiver)

/-- The type that an argument contributes: that of its elements if they are wanted or if it is a
class token. -/
def argumentType (wantElement : Bool) (arg : Argument) : Option String :=
  if arg.shape = .other then none
  else match arg.typeName.filter (fun t => t ≠ "") with
    | none => none
    | some type =>
      if classTokenTypes.contains type || wantElement then arg.elementType.filter (fun t => t ≠ "")
      else some type

/-- The mapping site of a call, if the types of its first two arguments are known. -/
def extract? (c : CallSite) : Option MappingSite :=
  match c.arguments with
  | source :: target :: _ => do
    let wantElement := collectionNames.contains c.name && source.shape ≠ .classLiteral
    let sourceType ← argumentType wantElement source
    let targetType ← argumentType false target
    return {
      declaring := c.enclosing, source := sourceType, target := targetType,
      location := c.location }
  | _ => none

/-- The mapping site of a call, if it is a mapping call with known types. -/
def site? (c : CallSite) : Option MappingSite := if isMappingCall c then extract? c else none

/-- Add a site, if there is one, unless it is listed. -/
def addSite (sites : List MappingSite) (site : Option MappingSite) : List MappingSite :=
  match site with
  | some s => addNew sites s
  | none => sites

/-- The sites of some calls, each once, polling before each call. -/
def sitesFrom (sites : List MappingSite) : List CallSite → Analysis (List MappingSite)
  | [] => return sites
  | c :: cs => do
    Analysis.checkpoint
    sitesFrom (addSite sites (site? c)) cs

variable (a : IndexAccess)

/-- Search the project for mapping sites. -/
def searchProject : Analysis (List MappingSite) := do
  let calls ← a.callsNamed transformNames
  sitesFrom [] calls

/-- The mapping sites of the project. -/
def inProject : Analysis (List MappingSite) := Analysis.cached .projectSites (searchProject a)

/-- Search the project for mapping sites with a given type on one side. -/
def searchType (type : String) : Analysis (List MappingSite) := do
  let sites ← inProject a
  return sites.filter (fun s => s.involves type)

/-- The mapping sites with a given type on one side. -/
def ofType (type : String) : Analysis (List MappingSite) :=
  Analysis.cached (.typeSites type) (searchType a type)

/-- Search a method body for mapping sites. -/
def searchMethod (m : MethodId) : Analysis (List MappingSite) := do
  let calls ← a.callsIn m
  sitesFrom [] (calls.filter (fun c => transformNames.contains c.name))

/-- The mapping sites in a method body. -/
def inMethod (m : MethodId) : Analysis (List MappingSite) :=
  Analysis.cached (.methodSites m) (searchMethod a m)

end Detection

end FieldTrace
