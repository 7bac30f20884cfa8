import FieldTrace.Hierarchy.CallTree
import FieldTrace.Hierarchy.Callers

/-! # Accessors of a field

Every field has a getter and a setter for the purposes of a trace, whether or not they are declared:
the framework may generate them. -/

namespace FieldTrace

/-- A getter or setter, declared or not. -/
structure Accessor where
  owner : String
  name : String
  params : List String
  category : Category
  declared : Option MethodId
  location : Location
  deriving DecidableEq, Repr, Inhabited

namespace Accessor

/-- The node of an accessor. -/
def toNode (x : Accessor) : CallNode where
  owner := x.owner
  name := x.name
  params := x.params
  location := some x.location
  category := x.category
  label := MethodId.label ⟨x.owner, x.name, x.params⟩ ++
    (if x.declared.isSome then "" else " (virtual)")

/-- A name with a capital first letter. -/
def capitalize (name : String) : String :=
  String.ofList ((name.toList.take 1).flatMap Text.upperChar ++ name.toList.drop 1)

/-- The accessor that a declared method gives, or a synthesised one at the field. -/
def make (owner name : String) (category : Category) (field : FieldDecl) (params : List String)
    (declared : Option MethodDecl) : Accessor where
  owner := owner
  name := name
  params := match declared with
    | some m => m.id.params
    | none => params
  category := category
  declared := declared.map MethodDecl.id
  location := match declared with
    | some m => m.location
    | none => field.location

/-- The name of the getter of a field. -/
def getterName (field : FieldDecl) (name : String) : String :=
  (if field.typeName = "boolean" then "is" else "get") ++ capitalize name

/-- The name of the setter of a field. -/
def setterName (name : String) : String := "set" ++ capitalize name

variable (a : IndexAccess)

/-- The getter and the setter of a field. -/
def of (f : FieldRef) : Analysis (List Accessor) := do
  match ← a.fieldOn f.declaringType f.name with
  | none => throw (.unresolved ("Field " ++ f.text ++ " not found"))
  | some field =>
    let getter ← a.findMethod f.declaringType (getterName field f.name) 0
    let setter ← a.findMethod f.declaringType (setterName f.name) 1
    return [
      make f.declaringType (getterName field f.name) .accessorGet field [] getter,
      make f.declaringType (setterName f.name) .accessorSet field [field.typeName] setter]

/-- The calls of an accessor: those on its owner by name, then the further uses of the declared
method. -/
def references (x : Accessor) : Analysis (List Reference) := do
  Analysis.checkpoint
  let calls ← Analysis.cached (.memberCalls x.owner x.name) (a.memberCalls x.owner x.name)
  match x.declared with
  | none => return calls
  | some m =>
    let callers ← Callers.of a m
    return callers.foldl addNew calls

end Accessor

end FieldTrace
