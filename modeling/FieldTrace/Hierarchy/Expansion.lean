import FieldTrace.Hierarchy.Accessor
import FieldTrace.Mapping.Crossing

/-! # Expanding a node

The children of a node of a call tree. A node carries the keys on its path, which no child repeats,
the mapping sites passed on the way, and the type that holds the traced field's name. -/

namespace FieldTrace

/-- What a pending node stands for. A mapping node that is a child of the root also leads to the
method that declares the site. -/
inductive Step where
  | root
  | mapping (crossing : Crossing) (showDeclaring : Bool)
  | accessor (accessor : Accessor)
  | method (method : MethodId)
  deriving DecidableEq, Repr

/-- A node whose children are still to be found. -/
structure Task where
  step : Step
  path : List NodeKey
  spliced : List MappingSite
  context : FieldRef
  deriving DecidableEq, Repr

/-- A child with its task; a terminal child has none. -/
abbrev Child := CallNode × Option Task

namespace Task

variable (t : Task)

/-- A child that is to be expanded in turn. -/
def child (n : CallNode) (step : Step) : Child :=
  (n, some { t with step := step, path := n.key :: t.path })

/-- A child for a method; at an entry point the trace ends. -/
def methodChild (n : CallNode) (m : MethodId) : Child :=
  if n.category.isTerminal then (n, none) else t.child n (.method m)

/-- The node of a mapping site. -/
def mappingNode (s : MappingSite) : CallNode where
  owner := s.declaring.owner
  name := "map"
  params := [s.source, s.target]
  location := some s.location
  category := .mapping
  label := s.declaring.simpleOwner ++ "." ++ s.declaring.name ++ ": " ++ simpleName s.source
    ++ " → " ++ simpleName s.target

/-- The child for a crossing, unless its key is on the path. -/
def mappingChild? (showDeclaring : Bool) (c : Crossing) : Option Child :=
  let n := mappingNode c.site
  if t.path.contains n.key then none
  else some (n, some {
    step := .mapping c showDeclaring, path := n.key :: t.path, spliced := c.site :: t.spliced,
    context := t.context })

/-- The child for an accessor in a context, unless its key is on the path. -/
def accessorChild? (context : FieldRef) (x : Accessor) : Option Child :=
  let n := x.toNode
  if t.path.contains n.key then none
  else some ({ t with context := context }.child n (.accessor x))

end Task

/-- The first `limit` crossings, where the first one of each pair of types comes before repeats. -/
def limitCrossings (limit : Nat) (cs : List Crossing) : List Crossing :=
  let split := cs.foldl
    (fun (s : Table (String × String) Crossing × List Crossing) c =>
      let pair := (c.site.source, c.site.target)
      if s.1.contains pair then (s.1, s.2 ++ [c]) else (s.1.insert pair c, s.2))
    (.empty, [])
  (split.1.values ++ split.2).take limit

namespace Expansion

variable (a : IndexAccess)

/-- The node of a method at a place. -/
def methodNode (m : MethodId) (location : Option Location) : Analysis CallNode := do
  let decl ← a.method m
  let rules := CategoryRule.withEntryPatterns CategoryRule.standard
    (← get).settings.extraEntryPatterns
  let traits := match decl with
    | some d => .ofDecl d
    | none => .ofId m
  return {
    owner := m.owner, name := m.name, params := m.params, location := location,
    category := CategoryRule.classify rules traits, label := m.label }

/-- The children for callers at places; those whose key is on the path are left out. -/
def callersAt (t : Task) : List (MethodId × Location) → Analysis (List Child)
  | [] => return []
  | (m, l) :: rest => do
    let n ← methodNode a m (some l)
    let others ← callersAt t rest
    return if t.path.contains n.key then others else t.methodChild n m :: others

/-- The children for some references, one for each caller and line. -/
def callerChildren (t : Task) (refs : List Reference) : Analysis (List Child) := do
  let s := (← get).settings
  callersAt a t (CallerGroups.collect s.callerLimit s.callSiteLimit refs)

/-- The uses of a field. -/
def fieldUsers (f : FieldRef) : Analysis (List Reference) := do
  Analysis.checkpoint
  Analysis.cached (.references f) (a.fieldReferences f)

/-- The children of the root: crossings, accessors, and methods that use the field directly. If the
users cannot be found the other children remain. -/
def root (t : Task) : Analysis (List Child) := do
  let f := t.context
  let crossings ← Crossings.of a f.declaringType f.name none
  let mappings := (limitCrossings (← get).settings.mappingSiteLimit crossings).filterMap
    (t.mappingChild? true)
  let accessors ← Accessor.of a f
  let found := mappings ++ accessors.filterMap (t.accessorChild? f)
  let decl ← a.fieldOn f.declaringType f.name
  let owners := f.declaringType :: (decl.map FieldDecl.declaringType).toList
  let isAccessor := fun (m : MethodId) =>
    owners.contains m.owner && (accessors.map Accessor.name).contains m.name
  match ← Analysis.attempt (fieldUsers a ((decl.map FieldDecl.ref).getD f)) with
  | none => return found
  | some users =>
    let direct := users.filter (fun r => r.enclosing.any (fun m => !isAccessor m))
    return found ++ (← callerChildren a t direct)

/-- The children of a mapping node: the declaring method if it is to be shown, and the accessors of
the field on the far side. -/
def mapping (t : Task) (c : Crossing) (showDeclaring : Bool) : Analysis (List Child) := do
  let declaring ←
    if showDeclaring then do
      let m := c.site.declaring
      let location := (← a.method m).map MethodDecl.location
      let n ← methodNode a m location
      pure (if t.path.contains n.key then [] else [t.methodChild n m])
    else pure []
  let accessors ← Accessor.of a c.continueAt
  return declaring ++ accessors.filterMap (t.accessorChild? ⟨c.nextType, t.context.name⟩)

/-- The children of an accessor: its callers. -/
def accessor (t : Task) (x : Accessor) : Analysis (List Child) := do
  let refs ← x.references a
  callerChildren a t refs

/-- The children of a method: its callers, and the crossings inside it that were not passed yet. -/
def method (t : Task) (m : MethodId) : Analysis (List Child) := do
  let refs ← Callers.throughDispatch a m
  let callers ← callerChildren a t refs
  let crossings ← Crossings.of a t.context.declaringType t.context.name (some m)
  let fresh := crossings.filter (fun c => !t.spliced.contains c.site)
  return callers ++ (limitCrossings (← get).settings.mappingSiteLimit fresh).filterMap
    (t.mappingChild? false)

/-- The children of a node. -/
def children (t : Task) : Analysis (List Child) :=
  match t.step with
  | .root => root a t
  | .mapping c showDeclaring => mapping a t c showDeclaring
  | .accessor x => accessor a t x
  | .method m => method a t m

end Expansion

end FieldTrace
