import FieldTrace.Index.CallSite
import FieldTrace.Index.Scope
import FieldTrace.Text.Case
import FieldTrace.Total

/-! # Types of expressions

A best-effort static type for every expression of a method body. Typing a name may type the initial
value of a local, which may stand anywhere in the body and may lead back to the same local; a local
that is being typed has no type meanwhile. Resolved calls and the types of locals are remembered.

Every step descends in the tree or begins a further local, so `MethodScope.budget` steps suffice;
running out of steps is told apart from finding no type. -/

namespace FieldTrace

open Syntax

/-! ### What is remembered -/

/-- A call with its target, its receiver and the nodes of its arguments. -/
structure CallResolution where
  target : Option MethodDecl := none
  receiver : Receiver := { kind := .none }
  arguments : List Cursor := []

/-- The calls resolved so far by position, the types of locals by number, and the locals being
typed. -/
structure TypingState where
  calls : Table (List Nat) CallResolution := .empty
  localTypes : Table Nat TypeRef := .empty
  resolving : List Nat := []

/-- Typing may run out of steps. -/
abbrev TypingM := StateT TypingState Option

namespace Typing

variable (s : MethodScope)

/-- The arguments of a call. -/
def arguments (c : Cursor) : List Cursor :=
  match c.child? .arguments with
  | some args => args.namedChildren.filter (fun a => !a.kind.isComment)
  | none => []

/-- The element type of an array or collection. -/
def elementOf (ref : Option TypeRef) : Option TypeRef :=
  (ref.bind (fun r => r.element.filter (fun e => e ≠ ""))).map (fun e => { name := e })

/-- The type of a local without using what is remembered of it. -/
def localTypeFresh (typeOf : Cursor → TypingM (Option TypeRef)) (l : Local) :
    TypingM (Option TypeRef) :=
  match l.typeNode.filter (fun t => s.text t ≠ "var") with
  | some t => pure (some (s.names.typeRef t))
  | none =>
    match l.value with
    | none => pure none
    | some v => do
      let ref ← typeOf v
      return if l.iterates then elementOf ref else ref

/-- The type of local number `i`. -/
def localType (typeOf : Cursor → TypingM (Option TypeRef)) (i : Nat) (l : Local) :
    TypingM (Option TypeRef) := do
  match (← get).localTypes.get? i with
  | some ref => return some ref
  | none =>
    if (← get).resolving.contains i then return none
    modify (fun st => { st with resolving := i :: st.resolving })
    let found ← localTypeFresh s typeOf l
    modify (fun st => { st with resolving := st.resolving.erase i })
    match found with
    | some ref =>
      modify (fun st => { st with localTypes := st.localTypes.insert i ref })
      return some ref
    | none => return none

/-- The kind of an explicit receiver. -/
def receiverKind (obj : Cursor) (ref : Option TypeRef) : ReceiverKind :=
  match obj.kind with
  | .this => .this
  | .super => .super
  | .methodInvocation => .call
  | _ => if ref.any TypeRef.isStatic then .type else .expression

/-- Resolve a call without a receiver: the nearest enclosing type with an applicable method. -/
def resolveImplicit (name : String) (args : List (Option TypeRef)) : Option MethodDecl × Receiver :=
  let found := s.names.chain.findSome? (fun e =>
    (s.types.lookupMethod e name args).map (fun m => (e, m)))
  match found with
  | some (e, m) => (some m, { kind := .none, staticType := some e })
  | none => (none, { kind := .none, staticType := some s.owner })

/-- Resolve a call on a receiver expression. -/
def resolveExplicit (typeOf : Cursor → TypingM (Option TypeRef)) (obj : Cursor) (name : String)
    (args : List (Option TypeRef)) : TypingM (Option MethodDecl × Receiver) := do
  let ref ← typeOf obj
  let inner := if obj.kind = .methodInvocation then obj.child? .object else none
  let innerRef ← match inner with
    | some o => typeOf o
    | none => pure none
  let receiver : Receiver := {
    kind := receiverKind obj ref
    text := s.text obj.node
    staticType := ref.map TypeRef.name
    callName :=
      if obj.kind = .methodInvocation then (obj.child? .name).map (fun n => s.text n.node) else none
    callReceiverText := inner.map (fun o => s.text o.node)
    callReceiverType := innerRef.map TypeRef.name }
  let target := (receiver.staticType.filter s.types.contains).bind
    (fun t => s.types.lookupMethod t name args)
  return (target, receiver)

/-- Resolve a method call. While it is being resolved the call counts as one without a target. -/
def resolveCall (typeOf : Cursor → TypingM (Option TypeRef)) (c : Cursor) :
    TypingM CallResolution := do
  match (← get).calls.get? c.path with
  | some r => return r
  | none =>
    modify (fun st => { st with calls := st.calls.insert c.path {} })
    let name := match c.child? .name with
      | some n => s.text n.node
      | none => ""
    let args := arguments c
    let argTypes ← args.mapM typeOf
    let (target, receiver) ← match c.child? .object with
      | none => pure (resolveImplicit s name argTypes)
      | some obj => resolveExplicit s typeOf obj name argTypes
    let resolution := { target := target, receiver := receiver, arguments := args }
    modify (fun st => { st with calls := st.calls.insert c.path resolution })
    return resolution

/-- The type of the member of an expression with type `ref`; failing that, the whole access may name
a type. -/
def memberType (whole member : Tree) (ref : Option TypeRef) : Option TypeRef :=
  match ref.filter (fun r => s.types.contains r.name) with
  | some r =>
    match s.types.fieldOn r.name (s.text member) with
    | some f => some f.typeRef
    | none =>
      let nested := r.name ++ "." ++ s.text member
      if r.isStatic && s.types.contains nested then some { name := nested, isStatic := true }
      else none
  | none =>
    let qualified := s.names.qualify (s.text whole)
    if s.types.contains qualified then some { name := qualified, isStatic := true } else none

/-- The type of a name that is no local: that of a field, or the type it names if it is
capitalised. -/
def nameType (name : String) : Option TypeRef :=
  match s.fieldInScope name with
  | some f => some f.typeRef
  | none =>
    if (name.toList.head?).any Text.isUpper then
      some { name := s.names.qualify name, isStatic := true }
    else none

/-- The type of an expression, in at most `steps` nested steps. -/
def typeOf : Nat → Cursor → TypingM (Option TypeRef)
  | 0, _ => fun _ => none
  | steps + 1, c =>
    match c.kind with
    | .identifier =>
      let name := s.text c.node
      match s.lookup name c.node.start with
      | some (i, l) => localType s (typeOf steps) i l
      | none => pure (nameType s name)
    | .this => pure (some { name := s.owner })
    | .super =>
      pure ((s.types.get? s.owner).bind (fun d => d.supertypes.head?.map (fun n => { name := n })))
    | .fieldAccess =>
      match c.child? .object, c.child? .field with
      | some obj, some member =>
        if member.kind = .this then
          pure (some { name := s.names.qualify (s.text obj.node) })
        else do
          let ref ← typeOf steps obj
          return memberType s c.node member.node ref
      | _, _ => pure none
    | .methodInvocation => do
      let r ← resolveCall s (typeOf steps) c
      return r.target.bind MethodDecl.returnType
    | .objectCreation => pure ((c.node.child? .type).map s.names.typeRef)
    | .castExpression => pure ((c.node.child? .type).map s.names.typeRef)
    | .parenthesized =>
      match c.namedChildren.find? (fun d => !d.kind.isComment) with
      | some inner => typeOf steps inner
      | none => pure none
    | .stringLiteral => pure (some { name := "String" })
    | .trueLiteral => pure (some { name := "boolean" })
    | .falseLiteral => pure (some { name := "boolean" })
    | .arrayAccess =>
      match c.child? .array with
      | some array => do return elementOf (← typeOf steps array)
      | none => pure none
    | .ternary =>
      match c.child? .consequence with
      | some branch => typeOf steps branch
      | none => pure none
    | .assignment =>
      match c.child? .left with
      | some left => typeOf steps left
      | none => pure none
    | _ => pure none

end Typing

namespace MethodScope

variable (s : MethodScope)

/-- Enough steps for every expression of the body. -/
def budget : Nat := s.body.size + total (s.locals.map Local.weight)

/-- What is known before any expression is typed: the types of the parameters. -/
def initialState : TypingState where
  localTypes := s.locals.zipIdx.foldl
    (fun table p => match p.1.known with
      | some ref => table.insert p.2 ref
      | none => table)
    .empty

/-- Run a typing step with the full budget. -/
def run {α : Type} (d : α) (step : Nat → TypingM α) : StateM TypingState α := fun st =>
  match step s.budget st with
  | some r => r
  | none => (d, st)

/-- The type of an expression. -/
def typeAt (c : Cursor) : StateM TypingState (Option TypeRef) :=
  s.run none (fun n => Typing.typeOf s n c)

/-- The target, receiver and arguments of a call. -/
def callAt (c : Cursor) : StateM TypingState CallResolution :=
  s.run {} (fun n => Typing.resolveCall s (Typing.typeOf s n) c)

end MethodScope

end FieldTrace
