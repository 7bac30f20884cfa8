import FieldTrace.Index.Naming

/-! # Declared fields, methods and types

The members of a registered type are read off the node that declares it. The first field of a name
and the first method of a signature count; later ones are dropped. -/

namespace FieldTrace

open Syntax

/-- A declared field. -/
structure FieldDecl where
  declaringType : String
  name : String
  typeName : String
  rawType : String
  elementType : Option String
  location : Location
  isStatic : Bool := false
  deriving DecidableEq, Repr, Inhabited

namespace FieldDecl

variable (f : FieldDecl)

/-- The field's name with its declaring type. -/
def ref : FieldRef := ⟨f.declaringType, f.name⟩

/-- The type of the field's value. -/
def typeRef : TypeRef := { name := f.typeName, element := f.elementType }

end FieldDecl

/-- A declared method or constructor. -/
structure MethodDecl where
  id : MethodId
  returnType : Option TypeRef
  params : List (String × TypeRef)
  annotations : List String
  ownerAnnotations : List String
  location : Location
  isAbstract : Bool := false
  isConstructor : Bool := false
  isStatic : Bool := false
  isVarargs : Bool := false
  deriving DecidableEq, Repr, Inhabited

namespace MethodDecl

variable (m : MethodDecl)

def name : String := m.id.name

/-- The number of parameters. -/
def arity : Nat := m.params.length

end MethodDecl

/-- A declared type with its members. -/
structure TypeDecl extends TypeHeader where
  supertypes : List String := []
  annotations : List String := []
  isAbstract : Bool := false
  fields : Table String FieldDecl := .empty
  methods : List MethodDecl := []
  deriving Repr, Inhabited

/-- A method with the node that declares it and the scope of its names. -/
structure MethodBody where
  decl : MethodDecl
  node : Tree
  names : NameScope

namespace Declare

/-! ### Modifiers -/

/-- The nodes inside the modifiers of a declaration. -/
def modifierNodes (t : Tree) : List Tree :=
  (t.children.filter (fun c => c.kind = .modifiers)).flatMap Tree.children

/-- The keywords among the modifiers. -/
def keywords (t : Tree) : List String :=
  (modifierNodes t).filterMap (fun c => match c.kind with
    | .keyword text => some text
    | _ => none)

/-- The simple names of the annotations among the modifiers. -/
def annotationNames (f : SourceFile) (t : Tree) : List String :=
  let uses := (modifierNodes t).filter
    (fun c => c.kind = .markerAnnotationUse || c.kind = .annotationUse)
  uses.filterMap (fun c => (c.child? .name).map (fun n => simpleName (f.text n)))

/-! ### Supertypes -/

/-- The type expressions after `extends` and `implements`. -/
def supertypeNodes (t : Tree) : List Tree :=
  t.children.flatMap (fun c =>
    if c.kind = .superclass then c.namedChildren
    else if c.kind = .superInterfaces || c.kind = .extendsInterfaces then
      c.namedChildren.flatMap Tree.namedChildren
    else [])

/-- The scope in which supertypes are read: outside the type itself if it is nested. -/
def supertypeScope (s : NameScope) : NameScope :=
  match s.chain with
  | _ :: outer :: rest => { s with chain := outer :: rest }
  | _ => s

/-! ### Fields -/

/-- The field declared by a declarator of a typed declaration. -/
def field? (s : NameScope) (owner : String) (isStatic : Bool) (typed named : Tree) :
    Option FieldDecl := do
  let typeNode ← typed.child? .type
  let nameNode ← named.child? .name
  let ref := s.typeRef typeNode
  return {
    declaringType := owner, name := s.text nameNode, typeName := ref.name,
    rawType := s.text typeNode, elementType := ref.element,
    location := s.file.locate nameNode, isStatic := isStatic }

/-- The fields that a member of a type declares. -/
def memberFields (s : NameScope) (owner : String) (t : Tree) : List FieldDecl :=
  if t.kind = .fieldDeclaration || t.kind = .constantDeclaration then
    let isStatic := (keywords t).contains "static" || t.kind = .constantDeclaration
    (t.childrenWith .declarator).filterMap (field? s owner isStatic t)
  else []

/-- The components of a record. -/
def recordFields (s : NameScope) (h : TypeHeader) (t : Tree) : List FieldDecl :=
  if h.kind = .recordType then
    match t.child? .parameters with
    | some params => params.namedChildren.filterMap (fun p => field? s h.name false p p)
    | none => []
  else []

/-- The members of a type declaration. -/
def members (t : Tree) : List Tree :=
  match t.child? .body with
  | some body => body.members
  | none => []

/-- The fields of a type by name. -/
def fields (s : NameScope) (h : TypeHeader) (t : Tree) : Table String FieldDecl :=
  (recordFields s h t ++ (members t).flatMap (memberFields s h.name)).foldl
    (fun table f => table.insertNew f.name f) .empty

/-! ### Methods -/

/-- The name of a parameter, empty if there is none. -/
def parameterName (s : NameScope) (nameNode : Option Tree) : String :=
  match nameNode with
  | some n => s.text n
  | none => ""

/-- A parameter; one without a type is dropped. -/
def parameter? (s : NameScope) (t : Tree) : Option (String × TypeRef) :=
  if t.kind = .formalParameter then
    (t.child? .type).map (fun typeNode => (parameterName s (t.child? .name), s.typeRef typeNode))
  else if t.kind = .spreadParameter then
    let typeNode := t.namedChildren.find?
      (fun c => c.kind ≠ .modifiers && c.kind ≠ .variableDeclarator)
    let declarator := t.namedChildren.find? (fun c => c.kind = .variableDeclarator)
    let element := match typeNode with
      | some n => (s.typeRef n).name
      | none => "Object"
    some (parameterName s (declarator.bind (fun d => d.child? .name)),
      { name := element ++ "[]", element := some element })
  else none

/-- The nodes of the parameters of a method. -/
def parameterNodes (t : Tree) : List Tree :=
  match t.child? .parameters with
  | some params => params.namedChildren
  | none => []

/-- The method or constructor that a member of a type declares. -/
def method? (s : NameScope) (h : TypeHeader) (ownerAnnotations : List String) (t : Tree) :
    Option MethodDecl := do
  guard (t.kind = .methodDeclaration || t.kind = .constructorDeclaration)
  let isConstructor : Bool := t.kind = .constructorDeclaration
  let nameNode ← t.child? .name
  let words := keywords t
  let params := (parameterNodes t).filterMap (parameter? s)
  let isStatic := words.contains "static"
  return {
    id := {
      owner := h.name
      name := if isConstructor then constructorName else s.text nameNode
      params := params.map (fun p => p.2.name) }
    returnType :=
      if isConstructor then some { name := h.name } else (t.child? .type).map s.typeRef
    params := params
    annotations := annotationNames s.file t
    ownerAnnotations := ownerAnnotations
    location := s.file.locate nameNode
    isAbstract := words.contains "abstract" ||
      (h.kind = .interfaceType && (t.child? .body).isNone && !isStatic && !words.contains "default")
    isConstructor := isConstructor
    isStatic := isStatic
    isVarargs := (parameterNodes t).any (fun p => p.kind = .spreadParameter) }

/-- The methods of a type with their nodes; the first of each signature counts. -/
def methods (s : NameScope) (h : TypeHeader) (ownerAnnotations : List String) (t : Tree) :
    Table MethodId (MethodDecl × Tree) :=
  (members t).foldl
    (fun table m => match method? s h ownerAnnotations m with
      | some decl => table.insertNew decl.id (decl, m)
      | none => table)
    .empty

/-! ### Types -/

/-- The scope of the names inside a registered type. -/
def scopeOf (reg : Registry) (r : Registration) : NameScope :=
  { registry := reg, file := r.file, context := r.context, chain := reg.enclosing r.header.name }

/-- The methods of a registered type with their nodes. -/
def methodsOf (reg : Registry) (r : Registration) : List (MethodDecl × Tree) :=
  (methods (scopeOf reg r) r.header (annotationNames r.file r.node) r.node).values

/-- The declaration of a registered type. -/
def typeOf (reg : Registry) (r : Registration) : TypeDecl :=
  let s := scopeOf reg r
  { r.header with
    supertypes := (supertypeNodes r.node).map (fun t => ((supertypeScope s).typeRef t).name)
    annotations := annotationNames r.file r.node
    isAbstract := (keywords r.node).contains "abstract" || r.header.kind = .interfaceType
    fields := fields s r.header r.node
    methods := (methodsOf reg r).map Prod.fst }

/-- The methods of a registered type that have a body. -/
def bodiesOf (reg : Registry) (r : Registration) : List MethodBody :=
  ((methodsOf reg r).filter (fun m => (m.2.child? .body).isSome)).map
    (fun m => { decl := m.1, node := m.2, names := scopeOf reg r })

end Declare

end FieldTrace
