import FieldTrace.Index.Registry
import FieldTrace.Text.Blank

/-! # Reading type names

A type name as written in a file is resolved to a qualified name in this order: a registered name,
a dotted name whose head resolves, an imported type, a nested type of the enclosing types, a type of
the same package, a type of a package imported whole, the first registered type with that simple
name. A name that resolves to nothing stands for itself. -/

namespace FieldTrace

open Syntax

/-- The type of an expression or declaration. The element is the item type of a collection or array;
`isStatic` marks an expression that names a type and not a value. -/
structure TypeRef where
  name : String
  element : Option String := none
  isStatic : Bool := false
  deriving DecidableEq, Repr, Inhabited

/-- A type text without its type arguments and outer blanks. -/
def stripGenerics (text : String) : String := Text.trim (Text.beforeFirst '<' text)

namespace Registry

variable (reg : Registry) (ctx : NameContext) (chain : List String)

/-- The qualified names that an unqualified name may stand for, in order of preference. -/
def candidates (name : String) : List String :=
  chain.map (fun e => e ++ "." ++ name)
    ++ (if ctx.package = "" then [] else [ctx.package ++ "." ++ name])
    ++ ctx.wildcards.map (fun p => p ++ "." ++ name)

/-- The qualified name of a name without dots. -/
def qualifySimple (name : String) : String :=
  match ctx.imports.get? name with
  | some target => target
  | none =>
    match (candidates ctx chain name).find? reg.isType with
    | some qualified => qualified
    | none => ((reg.bySimpleName.getD name []).head?).getD name

/-- The qualified name of a type text, in at most `bound` steps. -/
def qualifyWithin : Nat → String → String
  | 0, text => text
  | bound + 1, text =>
    let name := stripGenerics text
    if Text.endsWith name "[]" then qualifyWithin bound (Text.dropLast 2 name) ++ "[]"
    else if reg.isType name then name
    else match Text.splitFirst '.' name with
      | some (head, rest) =>
        let candidate := qualifyWithin bound head ++ "." ++ rest
        if reg.isType candidate then candidate else name
      | none => reg.qualifySimple ctx chain name

/-- The qualified name of a type text; every step shortens it. -/
def qualify (text : String) : String := reg.qualifyWithin ctx chain (text.length + 1) text

/-- The registered type that a text names from nowhere in particular: the name itself, the first
type with that simple name, or the first type whose name ends with it. -/
def resolve? (text : String) : Option String :=
  let name := stripGenerics text
  if reg.isType name then some name
  else match (reg.bySimpleName.getD name []).head? with
    | some qualified => some qualified
    | none => reg.types.keys.find? (fun q => Text.endsWith q ("." ++ name))

end Registry

/-- Where a type expression stands: a file, and the types around it. -/
structure NameScope where
  registry : Registry
  file : SourceFile
  context : NameContext
  chain : List String

namespace NameScope

variable (s : NameScope)

/-- The qualified name of a type text. -/
def qualify (text : String) : String := s.registry.qualify s.context s.chain text

/-- The text of a node. -/
def text (t : Tree) : String := s.file.text t

mutual

/-- The type that a type expression denotes. -/
def typeRef (s : NameScope) : Tree → TypeRef
  | .node k r a b cs =>
    let whole := s.text (.node k r a b cs)
    match k with
    | .genericType =>
      let base := (cs.find? Tree.isNamed).map s.text
      { name := s.qualify (base.getD whole), element := genericElement s none cs }
    | .arrayType =>
      let element := elementName s cs
      { name := element.getD "None" ++ "[]", element := element }
    | .typeIdentifier => { name := s.qualify whole }
    | .scopedTypeIdentifier => { name := s.qualify whole }
    | .annotatedType => (lastNamed s cs).getD { name := whole }
    | _ => { name := whole }

/-- The first type argument among the children of a generic type. -/
def genericElement (s : NameScope) (found : Option String) : List Tree → Option String
  | [] => found
  | .node k _ _ _ args :: rest =>
    if k = .typeArguments then genericElement s ((firstArgument s args).or found) rest
    else genericElement s found rest

/-- The first of some type arguments that has a type; a wildcard has that of its bound. -/
def firstArgument (s : NameScope) : List Tree → Option String
  | [] => none
  | .node k r a b bounds :: rest =>
    if k = .wildcard then (lastBound s bounds).or (firstArgument s rest)
    else if k.isNamed then some (typeRef s (.node k r a b bounds)).name
    else firstArgument s rest

/-- The bound of a wildcard. -/
def lastBound (s : NameScope) : List Tree → Option String
  | [] => none
  | t :: rest =>
    (lastBound s rest).or
      (if t.isNamed && t.kind ≠ .annotationUse then some (typeRef s t).name else none)

/-- The item type of an array type. -/
def elementName (s : NameScope) : List Tree → Option String
  | [] => none
  | t :: rest => if t.role = .element then some (typeRef s t).name else elementName s rest

/-- The type of the last named tree. -/
def lastNamed (s : NameScope) : List Tree → Option TypeRef
  | [] => none
  | t :: rest => (lastNamed s rest).or (if t.isNamed then some (typeRef s t) else none)

end

end NameScope

end FieldTrace
