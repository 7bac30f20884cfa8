import FieldTrace.Index.Basic
import FieldTrace.Run.Basic

/-! # Questions to the index

An analysis reaches the index through questions, each of which may fail. Which ones fail is given by
a plan that knows the number of questions asked before. -/

namespace FieldTrace

/-- A question to the index with all it asks about. -/
inductive IndexCall where
  | resolveType (name : String)
  | typeDecl (name : String)
  | method (method : MethodId)
  | findMethod (type name : String) (arity : Nat)
  | fieldOn (type field : String)
  | fieldsOf (type : String)
  | containersOf (type : String)
  | methodReferences (method : MethodId)
  | fieldReferences (field : FieldRef)
  | callersOf (method : MethodId)
  | implementationsOf (method : MethodId)
  | superMethodsOf (method : MethodId)
  | memberCalls (owner name : String)
  | callsNamed (names : List String)
  | callsIn (method : MethodId)
  deriving DecidableEq, Repr

/-- An index whose answers may fail: the plan gives the failure of the `n`-th question. -/
structure IndexAccess where
  index : Index
  fails : Nat → IndexCall → Option Failure := fun _ _ => none

namespace IndexAccess

variable (a : IndexAccess)

/-- Put a question that has a given answer. -/
def ask {α : Type} (call : IndexCall) (answer : α) : Analysis α := do
  let asked := (← get).indexCalls
  modify (fun r => { r with indexCalls := asked + 1 })
  match a.fails asked call with
  | some failure => throw failure
  | none => return answer

def resolveType (name : String) : Analysis (Option String) :=
  a.ask (.resolveType name) (a.index.resolveType name)

def typeDecl (name : String) : Analysis (Option TypeDecl) :=
  a.ask (.typeDecl name) (a.index.typeDecl name)

def method (m : MethodId) : Analysis (Option MethodDecl) :=
  a.ask (.method m) (a.index.method m)

def findMethod (type name : String) (arity : Nat) : Analysis (Option MethodDecl) :=
  a.ask (.findMethod type name arity) (a.index.types.findMethod type name (some arity))

def fieldOn (type field : String) : Analysis (Option FieldDecl) :=
  a.ask (.fieldOn type field) (a.index.types.fieldOn type field)

def fieldsOf (type : String) : Analysis (List FieldRef) :=
  a.ask (.fieldsOf type) (a.index.types.fieldsOf type true)

def containersOf (type : String) : Analysis (List FieldDecl) :=
  a.ask (.containersOf type) (a.index.types.containersOf type)

def methodReferences (m : MethodId) : Analysis (List Reference) :=
  a.ask (.methodReferences m) (a.index.methodReferences m)

def fieldReferences (f : FieldRef) : Analysis (List Reference) :=
  a.ask (.fieldReferences f) (a.index.fieldReferences f)

def callersOf (m : MethodId) : Analysis (List Reference) :=
  a.ask (.callersOf m) (a.index.callersOf m)

def implementationsOf (m : MethodId) : Analysis (List MethodId) :=
  a.ask (.implementationsOf m) (a.index.types.implementationsOf m)

def superMethodsOf (m : MethodId) : Analysis (List MethodId) :=
  a.ask (.superMethodsOf m) (a.index.types.superMethodsOf m)

def memberCalls (owner name : String) : Analysis (List Reference) :=
  a.ask (.memberCalls owner name) (a.index.memberCalls owner name)

def callsNamed (names : List String) : Analysis (List CallSite) :=
  a.ask (.callsNamed names) (a.index.callsNamed names)

def callsIn (m : MethodId) : Analysis (List CallSite) :=
  a.ask (.callsIn m) (a.index.callsIn m)

end IndexAccess

end FieldTrace
