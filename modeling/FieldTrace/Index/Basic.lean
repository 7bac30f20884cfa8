import FieldTrace.Index.Usage
import FieldTrace.Text.Quoted
import FieldTrace.Total

/-! # The project index

The index of a list of source files: the registered types with their members, the calls, the call
graph, and the places where methods and fields are used. It is built in three passes, so that every
name can be read against all types and every body against all members. -/

namespace FieldTrace

open Syntax

/-- For each method its callers in the order of their first call, each with the places of its calls
in order. -/
abbrev CallGraph := Table MethodId (Table MethodId (List Location))

namespace CallGraph

/-- Add a call. -/
def addCall (g : CallGraph) (caller callee : MethodId) (place : Location) : CallGraph :=
  g.alter callee (fun callers => (callers.getD .empty).push caller place)

/-- The calls of a method, grouped by caller. -/
def callersOf (g : CallGraph) (callee : MethodId) : List Reference :=
  (g.getD callee .empty).entries.flatMap (fun e => e.2.map (fun place => ⟨some e.1, place⟩))

/-- The number of calls. -/
def callCount (g : CallGraph) : Nat :=
  total (g.values.map (fun callers => total (callers.values.map List.length)))

end CallGraph

/-- The calls in the order in which they were found, filed by their names and by the methods that
make them. -/
structure CallRecord where
  sites : List CallSite
  byName : Table String (List CallSite)
  byMethod : Table MethodId (List CallSite)
  files_byName : byName.Files CallSite.name sites
  files_byMethod : byMethod.Files CallSite.enclosing sites

namespace CallRecord

/-- No calls. -/
def empty : CallRecord where
  sites := []
  byName := .empty
  byMethod := .empty
  files_byName := Table.files_empty _
  files_byMethod := Table.files_empty _

/-- File a further call. -/
def add (calls : CallRecord) (c : CallSite) : CallRecord where
  sites := calls.sites ++ [c]
  byName := calls.byName.push c.name c
  byMethod := calls.byMethod.push c.enclosing c
  files_byName := calls.files_byName.push c
  files_byMethod := calls.files_byMethod.push c

end CallRecord

/-- A request that an index does not serve: a finished index takes no further sources, and a plain
text is nothing that could be referred to. -/
inductive IndexError where
  | finished
  | unsupportedTarget (text : String)
  deriving DecidableEq, Repr

/-- Why the request is not served. -/
def IndexError.message : IndexError → String
  | finished => "Cannot add sources after the index is built"
  | unsupportedTarget text => "Unsupported reference target: " ++ Text.quote text

/-- An index of a project. -/
structure Index where
  files : List String := []
  skipped : List String := []
  registry : Registry := {}
  types : TypeTable := .empty
  methods : Table MethodId MethodDecl := .empty
  callRecord : CallRecord := .empty
  callGraph : CallGraph := .empty
  methodUses : Table MethodId (List Reference) := .empty
  fieldUses : Table FieldRef (List Reference) := .empty

namespace Index

/-! ### Building -/

/-- Declare the members of the registered types. -/
def declare (reg : Registry) : Index :=
  let types : TypeTable := reg.types.mapValues (Declare.typeOf reg)
  { registry := reg
    types := types
    methods := (types.values.flatMap TypeDecl.methods).foldl
      (fun table m => table.insertNew m.id m) .empty }

/-- Record that a method is called or referred to. -/
def recordMethodUse (idx : Index) (caller target : MethodId) (place : Location) : Index :=
  { idx with
    callGraph := idx.callGraph.addCall caller target place
    methodUses := idx.methodUses.push target ⟨some caller, place⟩ }

/-- Record one usage. -/
def record (idx : Index) : Usage → Index
  | .call site =>
    let idx := { idx with callRecord := idx.callRecord.add site }
    match site.resolved with
    | some target => idx.recordMethodUse site.enclosing target site.location
    | none => idx
  | .field target ref => { idx with fieldUses := idx.fieldUses.push target ref }
  | .methodReference target ref =>
    match ref.enclosing with
    | some caller => idx.recordMethodUse caller target ref.location
    | none => idx

/-- All method bodies in declaration order. -/
def bodies (reg : Registry) : List MethodBody := reg.types.values.flatMap (Declare.bodiesOf reg)

/-- The index of a list of files, and of files that could not be read. -/
def ofFiles (files : List SourceFile) (skipped : List String) : Index :=
  let reg := Registry.ofFiles files
  let declared := declare reg
  let usages := (bodies reg).flatMap (Usage.ofBody declared.types)
  { usages.foldl record declared with files := files.map SourceFile.path, skipped := skipped }

/-! ### Queries -/

variable (idx : Index)

/-- The declared type that a text names. -/
def resolveType (text : String) : Option String := idx.registry.resolve? text

/-- The declaration of a type. -/
def typeDecl (name : String) : Option TypeDecl := idx.types.get? name

/-- The declaration of a method. -/
def method (m : MethodId) : Option MethodDecl := idx.methods.get? m

/-- The uses of a method in the order in which they were found. -/
def methodReferences (m : MethodId) : List Reference := idx.methodUses.getD m []

/-- The uses of a field, whichever of its heirs it is named by. -/
def fieldReferences (f : FieldRef) : List Reference :=
  let declared := match idx.types.fieldOn f.declaringType f.name with
    | some d => d.ref
    | none => f
  idx.fieldUses.getD declared []

/-- The calls of a method, grouped by caller. -/
def callersOf (m : MethodId) : List Reference := idx.callGraph.callersOf m

/-- All calls in the order in which they were found. -/
def calls : List CallSite := idx.callRecord.sites

/-- The calls with one of some names. -/
def callsNamed (names : List String) : List CallSite :=
  idx.calls.filter (fun c => names.contains c.name)

/-- The calls in a method body. -/
def callsIn (m : MethodId) : List CallSite := idx.callRecord.byMethod.getD m []

theorem callsIn_eq_filter (m : MethodId) :
    idx.callsIn m = idx.calls.filter (fun c => c.enclosing = m) :=
  idx.callRecord.files_byMethod m

theorem mem_calls_of_mem_callsIn {idx : Index} {m : MethodId} {c : CallSite}
    (h : c ∈ idx.callsIn m) : c ∈ idx.calls := by
  rw [callsIn_eq_filter] at h
  exact (List.mem_filter.1 h).1

/-- Is the call made on the owner, on something typed as it, or on a subtype? -/
def isMemberCall (owner : String) (c : CallSite) : Bool :=
  c.resolved.any (fun m => m.owner = owner) || c.receiver.staticType.any (fun t =>
    t = owner || (idx.types.contains t && idx.types.isSubtype t owner))

/-- The calls of a name on a type, whether or not a method of that name is declared. -/
def memberCalls (owner name : String) : List Reference :=
  ((idx.callRecord.byName.getD name []).filter (idx.isMemberCall owner)).map
    (fun c => ⟨some c.enclosing, c.location⟩)

theorem memberCalls_eq_filter (owner name : String) :
    idx.memberCalls owner name =
      ((idx.calls.filter (fun c => c.name = name)).filter (idx.isMemberCall owner)).map
        (fun c => ⟨some c.enclosing, c.location⟩) := by
  rw [memberCalls, idx.callRecord.files_byName name]
  rfl

end Index

/-- The sizes of an index. -/
structure IndexStats where
  files : Nat
  skippedFiles : Nat
  types : Nat
  methods : Nat
  callSites : Nat
  callEdges : Nat
  deriving DecidableEq, Repr

/-- Count what an index holds. -/
def Index.stats (idx : Index) : IndexStats where
  files := idx.files.length
  skippedFiles := idx.skipped.length
  types := idx.types.size
  methods := idx.methods.size
  callSites := idx.calls.length
  callEdges := idx.callGraph.callCount

end FieldTrace
