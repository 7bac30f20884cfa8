import FieldTrace.Syntax.Source

/-! # Registered types

Every type declaration of the sources, nested ones included, is registered once under its qualified
name, in reading order. A second declaration of a name is skipped together with the types inside
it. -/

namespace FieldTrace

open Syntax

/-- What a type declaration declares. -/
inductive TypeKind where
  | classType | interfaceType | enumType | recordType | annotationType
  deriving DecidableEq, Repr, Inhabited

namespace TypeKind

/-- The keyword of the declaration. -/
def text : TypeKind → String
  | classType => "class"
  | interfaceType => "interface"
  | enumType => "enum"
  | recordType => "record"
  | annotationType => "annotation"

/-- The kind of type that a node declares, if it declares one. -/
def ofKind? : Kind → Option TypeKind
  | .classDeclaration => some classType
  | .interfaceDeclaration => some interfaceType
  | .enumDeclaration => some enumType
  | .recordDeclaration => some recordType
  | .annotationTypeDeclaration => some annotationType
  | _ => none

end TypeKind

/-- The name and place of a declared type. -/
structure TypeHeader where
  name : String
  simpleName : String
  kind : TypeKind
  file : String
  line : Nat
  package : String
  outer : Option String
  deriving Repr, Inhabited

/-- A registered type with the node that declares it. -/
structure Registration where
  header : TypeHeader
  file : SourceFile
  context : NameContext
  node : Tree

/-- The registered types in order, and the qualified names of each simple name. -/
structure Registry where
  types : Table String Registration := .empty
  bySimpleName : Table String (List String) := .empty

namespace Registry

/-- Is the name that of a registered type? -/
def isType (reg : Registry) (name : String) : Bool := reg.types.contains name

/-- Register a type whose name is not taken. -/
def add (reg : Registry) (r : Registration) : Registry where
  types := reg.types.insert r.header.name r
  bySimpleName := reg.bySimpleName.push r.header.simpleName r.header.name

/-- The qualified name of a type declared inside `outer`, or at the top of a file. -/
def qualifiedName (package : String) (outer : Option String) (simple : String) : String :=
  let parent := (outer.filter (fun o => o ≠ "")).getD package
  if parent = "" then simple else parent ++ "." ++ simple

/-- The registration of a type declaration, if the node is one and has a name. -/
def registration? (f : SourceFile) (ctx : NameContext) (outer : Option String) (t : Tree) :
    Option Registration := do
  let kind ← TypeKind.ofKind? t.kind
  let nameNode ← t.child? .name
  let simple := f.text nameNode
  return {
    header := {
      name := qualifiedName ctx.package outer simple, simpleName := simple, kind := kind,
      file := f.path, line := f.line nameNode, package := ctx.package, outer := outer }
    file := f, context := ctx, node := t }

mutual

/-- Register a declaration and the types inside it. -/
def registerAt (f : SourceFile) (ctx : NameContext) (outer : Option String) (reg : Registry) :
    Tree → Registry
  | .node k r s e cs =>
    match registration? f ctx outer (.node k r s e cs) with
    | none => reg
    | some entry =>
      if reg.isType entry.header.name then reg
      else registerBody f ctx (some entry.header.name) (reg.add entry) cs

/-- Register the members of the body among the children of a declaration. -/
def registerBody (f : SourceFile) (ctx : NameContext) (outer : Option String) (reg : Registry) :
    List Tree → Registry
  | [] => reg
  | .node _ r _ _ cs :: rest =>
    if r = .body then registerMembers f ctx outer reg cs
    else registerBody f ctx outer reg rest

/-- Register the members of a body; the members after enumeration constants count too. -/
def registerMembers (f : SourceFile) (ctx : NameContext) (outer : Option String) (reg : Registry) :
    List Tree → Registry
  | [] => reg
  | .node k r s e cs :: rest =>
    if k = .enumBodyDeclarations then
      registerMembers f ctx outer (registerAll f ctx outer reg cs) rest
    else registerMembers f ctx outer (registerAt f ctx outer reg (.node k r s e cs)) rest

/-- Register every declaration of a list. -/
def registerAll (f : SourceFile) (ctx : NameContext) (outer : Option String) (reg : Registry) :
    List Tree → Registry
  | [] => reg
  | t :: rest => registerAll f ctx outer (registerAt f ctx outer reg t) rest

end

/-- Register the types of a file. -/
def addFile (reg : Registry) (f : SourceFile) : Registry :=
  registerAll f (.ofFile f) none reg f.tree.children

/-- The types of a list of files. -/
def ofFiles (files : List SourceFile) : Registry := files.foldl addFile {}

/-- A type and the types around it, innermost first, at most `bound` of them. -/
def enclosingWithin (reg : Registry) : Nat → String → List String
  | 0, _ => []
  | bound + 1, name =>
    if name = "" then []
    else match (reg.types.get? name).bind (fun r => r.header.outer) with
      | none => [name]
      | some outer => name :: reg.enclosingWithin bound outer

/-- A type and the types around it, innermost first. -/
def enclosing (reg : Registry) (name : String) : List String :=
  reg.enclosingWithin (reg.types.size + 1) name

end Registry

end FieldTrace
