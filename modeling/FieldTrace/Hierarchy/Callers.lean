import FieldTrace.Run.Access

/-! # Callers of a method

The callers of a method are found through the call graph or by searching its references. They are
shown as one node for each caller and line, limited in both directions. -/

namespace FieldTrace

/-- How the callers of a method are found. -/
inductive CallerSearch where
  | callGraph | referenceSearch
  deriving DecidableEq, Repr, Inhabited

namespace CallerSearch

/-- The name of a search. -/
def text : CallerSearch → String
  | callGraph => "call-graph"
  | referenceSearch => "reference-search"

/-- The searches in order of preference. -/
def candidates (preferNative : Bool) : List CallerSearch :=
  if preferNative then [callGraph, referenceSearch] else [referenceSearch, callGraph]

/-- The first search that an index supports. -/
def select? (supports : CallerSearch → Bool) (preferNative : Bool) : Option CallerSearch :=
  (candidates preferNative).find? supports

/-- The message for an index that supports none. -/
def unsupported (indexName : String) : String := indexName ++ " supports no caller search strategy"

/-- The search over a project index, which supports both. -/
def forSettings (s : Settings) : CallerSearch :=
  (select? (fun _ => true) s.preferNativeHierarchy).getD .callGraph

/-- The uses of a method as found by the search. -/
def find (search : CallerSearch) (a : IndexAccess) (m : MethodId) : Analysis (List Reference) :=
  match search with
  | callGraph => a.callersOf m
  | referenceSearch => a.methodReferences m

end CallerSearch

/-! ### Grouping -/

/-- Callers in order of first occurrence with the places of their calls, and all pairs of caller and
place met so far. -/
structure CallerGroups where
  callers : Table MethodId (List Location) := .empty
  seen : List (MethodId × Location) := []

namespace CallerGroups

/-- Take up a place of a caller, unless it is known or one of the limits is reached. -/
def addCall (callerLimit callSiteLimit : Nat) (g : CallerGroups) (m : MethodId) (l : Location) :
    CallerGroups :=
  if !g.callers.contains m && decide (callerLimit ≤ g.callers.size) then g
  else if g.seen.contains (m, l) then g
  else {
    callers := g.callers.alter m (fun places =>
      let places := places.getD []
      if places.length < callSiteLimit then places ++ [l] else places)
    seen := (m, l) :: g.seen }

/-- Take up a reference, if it is in a method. -/
def add (callerLimit callSiteLimit : Nat) (g : CallerGroups) (r : Reference) : CallerGroups :=
  match r.enclosing with
  | some m => g.addCall callerLimit callSiteLimit m r.location
  | none => g

/-- The callers and places of some references, grouped by caller. -/
def collect (callerLimit callSiteLimit : Nat) (refs : List Reference) :
    List (MethodId × Location) :=
  (refs.foldl (add callerLimit callSiteLimit) {}).callers.entries.flatMap
    (fun e => e.2.map (fun l => (e.1, l)))

end CallerGroups

/-! ### Callers through dispatch -/

namespace Callers

variable (a : IndexAccess)

/-- Search for the uses of a method in the way that the settings ask for. -/
def search (m : MethodId) : Analysis (List Reference) := do
  (CallerSearch.forSettings (← get).settings).find a m

/-- The uses of a method. -/
def of (m : MethodId) : Analysis (List Reference) := Analysis.cached (.callers m) (search a m)

/-- Search for the first overriding or implementing methods. -/
def searchImplementations (m : MethodId) : Analysis (List MethodId) := do
  let found ← a.implementationsOf m
  return found.take (← get).settings.implementationLimit

/-- The first overriding or implementing methods. -/
def implementations (m : MethodId) : Analysis (List MethodId) :=
  Analysis.cached (.implementations m) (searchImplementations a m)

/-- A method with its implementations, if it can have any, and the methods it overrides. -/
def family (m : MethodId) : Analysis (List MethodId) := do
  let decl ← a.method m
  let owner ← a.typeDecl m.owner
  let below ←
    if decl.any MethodDecl.isAbstract || owner.any (fun d => d.kind = .interfaceType) then
      implementations a m
    else pure []
  let above ← if decl.any MethodDecl.isConstructor then pure [] else a.superMethodsOf m
  return m :: (below ++ above)

/-- The uses of each of some methods, outside the given family; polls before each. -/
def ofAll (members : List MethodId) : List MethodId → Analysis (List Reference)
  | [] => return []
  | m :: ms => do
    Analysis.checkpoint
    let refs ← of a m
    let rest ← ofAll members ms
    return refs.filter (fun r => !r.enclosing.any (fun e => members.contains e)) ++ rest

/-- The uses of a method and of the methods that dispatch may exchange it with. -/
def throughDispatch (m : MethodId) : Analysis (List Reference) := do
  let members ← family a m
  ofAll a members (distinct members)

end Callers

end FieldTrace
