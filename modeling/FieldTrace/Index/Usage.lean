import FieldTrace.Index.Typing

/-! # Uses of methods and fields

A method body is walked in reading order. Each named call, construction of a declared type, access
to a field and method reference is recorded as one usage. -/

namespace FieldTrace

open Syntax

/-- Something that a method body does with a declaration. -/
inductive Usage where
  | call (site : CallSite)
  | field (target : FieldRef) (place : Reference)
  | methodReference (target : MethodId) (place : Reference)
  deriving DecidableEq, Repr

namespace Usage

variable (s : MethodScope)

/-- A place inside the method. -/
def reference (t : Tree) : Reference := ⟨some s.decl.id, s.names.file.locate t⟩

/-- The shape of an argument that is no class literal. -/
def shapeOf : Kind → ArgumentShape
  | .identifier => .value
  | .fieldAccess => .value
  | .methodInvocation => .call
  | _ => .other

/-- The description of an argument. -/
def argument (a : Cursor) : StateM TypingState Argument := do
  let text := s.text a.node
  if a.kind = .classLiteral then
    let ref := a.node.namedChildren.head?.map s.names.typeRef
    return { shape := .classLiteral, text := text, typeName := ref.map TypeRef.name,
             elementType := ref.bind TypeRef.element }
  else
    let ref := (← s.typeAt a).filter (fun r => !r.isStatic)
    return { shape := shapeOf a.kind, text := text, typeName := ref.map TypeRef.name,
             elementType := ref.bind TypeRef.element }

/-- The call at a method invocation; one without a name is resolved but not recorded. -/
def ofInvocation (c : Cursor) : StateM TypingState (List Usage) := do
  let r ← s.callAt c
  match c.child? .name with
  | none => return []
  | some n =>
    let args ← r.arguments.mapM (argument s)
    return [call {
      enclosing := s.decl.id, name := s.text n.node, location := s.names.file.locate n.node,
      receiver := r.receiver, arguments := args, resolved := r.target.map MethodDecl.id }]

/-- The constructor call at an object creation of a declared type. -/
def ofCreation (c : Cursor) : StateM TypingState (List Usage) := do
  match c.node.child? .type with
  | none => return []
  | some typeNode =>
    let typeName := (s.names.typeRef typeNode).name
    match s.types.get? typeName with
    | none => return []
    | some d =>
      let argTypes ← (Typing.arguments c).mapM s.typeAt
      match selectOverload (d.methods.filter MethodDecl.isConstructor) argTypes with
      | none => return []
      | some target =>
        return [call {
          enclosing := s.decl.id, name := constructorName,
          location := s.names.file.locate c.node,
          receiver := { kind := .type, text := s.text typeNode, staticType := some typeName },
          resolved := some target.id }]

/-- Parents below which a name is never a value. -/
def hidesValues : Kind → Bool
  | .inferredParameters | .labeledStatement | .breakStatement | .continueStatement
  | .methodReference | .scopedIdentifier | .markerAnnotationUse | .annotationUse
  | .elementValuePair | .packageDeclaration | .importDeclaration => true
  | _ => false

/-- Parents whose name child names a declaration or member. -/
def ownsName : Kind → Bool
  | .methodInvocation | .variableDeclarator | .formalParameter | .catchFormalParameter
  | .enhancedForStatement | .resource | .methodDeclaration | .constructorDeclaration
  | .classDeclaration | .interfaceDeclaration | .enumDeclaration | .recordDeclaration
  | .enumConstant | .typePattern | .instanceofExpression => true
  | _ => false

/-- Does the identifier stand for a value? -/
def isValue (v : Visit) : Bool :=
  let k := v.parent.kind
  !hidesValues k
    && !(ownsName k && v.parent.childIndex? .name = some v.index)
    && !(k = .fieldAccess && v.parent.childIndex? .field = some v.index)
    && !(k = .lambda && v.parent.childIndex? .parameters = some v.index)

/-- The use of a field by its bare name. -/
def ofIdentifier (v : Visit) : List Usage :=
  let t := v.cursor.node
  if isValue v && (s.lookup (s.text t) t.start).isNone then
    match s.fieldInScope (s.text t) with
    | some f => [field f.ref (reference s t)]
    | none => []
  else []

/-- The use of a field through an expression. -/
def ofAccess (c : Cursor) : StateM TypingState (List Usage) := do
  match c.child? .object, c.child? .field with
  | some obj, some member =>
    if member.kind = .identifier then
      match (← s.typeAt obj).filter (fun r => s.types.contains r.name) with
      | some r =>
        match s.types.fieldOn r.name (s.text member.node) with
        | some f => return [field f.ref (reference s member.node)]
        | none => return []
      | none => return []
    else return []
  | _, _ => return []

/-- Does the node write a type? -/
def isTypeNode (k : Kind) : Bool :=
  k = .typeIdentifier || k = .scopedTypeIdentifier || k = .genericType

/-- The first method that a method reference may mean. -/
def ofMethodReference (c : Cursor) : StateM TypingState (List Usage) := do
  match c.namedChildren, c.namedChildren.getLast? with
  | qualifier :: _ :: _, some last =>
    if last.kind = .identifier then
      let ref ← if isTypeNode qualifier.kind then pure (some (s.names.typeRef qualifier.node))
        else s.typeAt qualifier
      let target := (ref.filter (fun r => s.types.contains r.name)).bind
        (fun r => s.types.findMethod r.name (s.text last.node) none)
      return target.toList.map (fun m => methodReference m.id (reference s c.node))
    else return []
  | _, _ => return []

/-- The usages at one node. -/
def ofVisit (v : Visit) : StateM TypingState (List Usage) :=
  match v.cursor.kind with
  | .methodInvocation => ofInvocation s v.cursor
  | .objectCreation => ofCreation s v.cursor
  | .identifier => pure (ofIdentifier s v)
  | .fieldAccess => ofAccess s v.cursor
  | .methodReference => ofMethodReference s v.cursor
  | _ => pure []

/-- The usages at a list of nodes. -/
def along : List Visit → StateM TypingState (List Usage)
  | [] => pure []
  | v :: vs => do
    let first ← ofVisit s v
    let rest ← along vs
    return first ++ rest

/-- The usages of a method body in reading order. -/
def ofScope : List Usage := (along s (visits s.node s.body) s.initialState).1

/-- The usages of a method with a body. -/
def ofBody (types : TypeTable) (b : MethodBody) : List Usage :=
  match MethodScope.ofBody? types b with
  | some s => ofScope s
  | none => []

end Usage

end FieldTrace
