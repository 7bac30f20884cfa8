import FieldTrace.Index.Lookup

/-! # Local variables

The parameters and local variables of a method, each with the range of bytes in which it is
visible. Where several locals of a name are visible, the one that begins last is meant. -/

namespace FieldTrace

open Syntax

/-- A parameter or local variable, visible from `start` up to `stop`. A parameter has a known type.
Any other local may have a type expression and an initial value; one that iterates takes the
elements of its value. -/
structure Local where
  name : String
  start : Nat
  stop : Nat
  known : Option TypeRef := none
  typeNode : Option Tree := none
  value : Option Cursor := none
  iterates : Bool := false

/-- Is the local visible at a position? -/
def Local.visibleAt (l : Local) (position : Nat) : Bool :=
  decide (l.start ≤ position) && decide (position < l.stop)

/-- The nodes of the initial value of a local, and one more. -/
def Local.weight (l : Local) : Nat :=
  match l.value with
  | some v => v.node.size + 1
  | none => 1

/-- The names that a method body is read with. -/
structure MethodScope where
  decl : MethodDecl
  names : NameScope
  types : TypeTable
  node : Tree
  body : Tree
  locals : List Local

namespace Locals

variable (s : NameScope)

/-- The parameters of a method. -/
def ofParameters (decl : MethodDecl) (node : Tree) : List Local :=
  (decl.params.filter (fun p => p.1 ≠ "")).map (fun p =>
    { name := p.1, start := node.start, stop := node.stop, known := some p.2 })

/-- A local named by a child of `named`, if it has a name. -/
def named? (named : Cursor) (start stop : Nat) (typeNode : Option Tree) (value : Option Cursor)
    (iterates : Bool) : Option Local :=
  (named.child? .name).map (fun n =>
    { name := s.text n.node, start := start, stop := stop, typeNode := typeNode, value := value,
      iterates := iterates })

/-- The nodes that name the parameters of a lambda expression. -/
def lambdaNames (params : Tree) : List Tree :=
  if params.kind = .identifier then [params]
  else (params.namedChildren.filterMap (fun p =>
    if p.kind = .formalParameter then p.child? .name else some p)).filter
      (fun n => n.kind = .identifier)

/-- The locals that a node introduces. -/
def introducedBy (v : Visit) : List Local :=
  let c := v.cursor
  let t := c.node
  match c.kind with
  | .localVariableDeclaration =>
    (c.childrenWith .declarator).filterMap (fun d =>
      named? s d d.node.start v.parent.stop (t.child? .type) (d.child? .value) false)
  | .enhancedForStatement =>
    (named? s c t.start t.stop (t.child? .type) (c.child? .value) true).toList
  | .resource =>
    match v.grandparent with
    | some statement =>
      (named? s c t.start statement.stop (t.child? .type) (c.child? .value) false).toList
    | none => []
  | .catchFormalParameter =>
    let caught := t.namedChildren.find? (fun c => c.kind = .catchType)
    (named? s c t.start v.parent.stop (caught.bind (fun k => k.namedChildren.head?)) none
      false).toList
  | .lambda =>
    match t.child? .parameters with
    | some params => (lambdaNames params).map (fun n =>
      { name := s.text n, start := t.start, stop := t.stop })
    | none => []
  | _ => []

/-- The locals of a method with a body. -/
def ofMethod (decl : MethodDecl) (node body : Tree) : List Local :=
  ofParameters decl node ++ (visitsFromRight node body).flatMap (introducedBy s)

end Locals

namespace MethodScope

/-- The scope of a method body. -/
def ofBody? (types : TypeTable) (b : MethodBody) : Option MethodScope :=
  (b.node.child? .body).map (fun body =>
    { decl := b.decl, names := b.names, types := types, node := b.node, body := body,
      locals := Locals.ofMethod b.names b.decl b.node body })

variable (s : MethodScope)

/-- The type that declares the method, the innermost of the types around the body. A type without a
name is around nothing. -/
def owner : String := s.names.chain.headD ""

/-- The text of a node. -/
def text (t : Tree) : String := s.names.text t

/-- The local that a name means at a position, with its number; of two that begin together the later
one is meant. -/
def lookup (name : String) (position : Nat) : Option (Nat × Local) :=
  s.locals.zipIdx.foldl
    (fun best p =>
      if p.1.name = name && p.1.visibleAt position
          && best.all (fun (b : Nat × Local) => decide (b.2.start ≤ p.1.start)) then
        some (p.2, p.1)
      else best)
    none

/-- The field that a name means in the method's type or a type around it. -/
def fieldInScope (name : String) : Option FieldDecl :=
  s.names.chain.findSome? (fun e => s.types.fieldOn e name)

end MethodScope

end FieldTrace
