import FieldTrace.Index.Inheritance

/-! # Looking up members

Fields and methods are looked up along the lineage of a type: on the type itself, then on its
supertypes, the nearest first. -/

namespace FieldTrace

namespace TypeTable

variable (types : TypeTable)

/-- The declarations of the type and its supertypes, the nearest first. -/
def declarationsAlong (name : String) : List TypeDecl := (lineage types name).filterMap types.get?

/-- The nearest field of a name. -/
def fieldOn (name field : String) : Option FieldDecl :=
  (declarationsAlong types name).findSome? (fun d => d.fields.get? field)

/-- The fields of a type; a nearer declaration hides farther ones of its name. -/
def fieldsOf (name : String) (inherited : Bool) : List FieldRef :=
  let decls := if inherited then declarationsAlong types name else (types.get? name).toList
  (decls.foldl
    (fun (seen : Table String FieldRef) d =>
      d.fields.values.foldl (fun seen f => seen.insertNew f.name f.ref) seen)
    .empty).values

/-- The nearest method of a name, of a given arity if one is asked for. -/
def findMethod (name method : String) (arity : Option Nat) : Option MethodDecl :=
  (declarationsAlong types name).findSome? (fun d =>
    d.methods.find? (fun m => m.name = method && arity.all (fun n => m.arity = n)))

/-- The fields whose value or element has a given type. -/
def containersOf (name : String) : List FieldDecl :=
  (types.values.flatMap (fun d => d.fields.values)).filter
    (fun f => f.typeName = name || f.elementType = some name)

end TypeTable

/-! ### Overload selection -/

/-- The known argument types are the parameter types. -/
def acceptsTypes (args : List (Option TypeRef)) (m : MethodDecl) : Bool :=
  (m.params.zip args).all (fun p => match p.2 with
    | none => true
    | some t => t.name = p.1.2.name)

/-- The overload that a call with these argument types selects: of several with the right arity the
first whose parameter types agree with the known argument types, else the first; with none of the
right arity, the first with variable arity that takes them. -/
def selectOverload (methods : List MethodDecl) (args : List (Option TypeRef)) : Option MethodDecl :=
  match methods.filter (fun m => m.arity = args.length) with
  | [] => methods.find? (fun m => m.isVarargs && decide (m.arity ≤ args.length + 1))
  | [m] => some m
  | m :: rest => ((m :: rest).find? (acceptsTypes args)).or (some m)

namespace TypeTable

variable (types : TypeTable)

/-- The method that a call selects: that of the nearest type with an applicable overload. -/
def lookupMethod (name method : String) (args : List (Option TypeRef)) : Option MethodDecl :=
  (declarationsAlong types name).findSome? (fun d =>
    selectOverload (d.methods.filter (fun m => m.name = method)) args)

/-! ### Overriding -/

/-- The method of a type with the same name and parameter types. -/
def sameSignature? (d : TypeDecl) (m : MethodId) : Option MethodDecl :=
  d.methods.find? (fun n => n.name = m.name && n.id.params = m.params)

/-- The method of a type with the same name and number of parameters. -/
def sameArity? (d : TypeDecl) (m : MethodId) : Option MethodDecl :=
  d.methods.find? (fun n => n.name = m.name && n.arity = m.params.length && !n.isConstructor)

/-- The methods of subtypes that override or implement a method. -/
def implementationsOf (m : MethodId) : List MethodId :=
  ((subtypesOf types m.owner).filterMap types.get?).filterMap
    (fun d => ((sameSignature? d m).or (sameArity? d m)).map MethodDecl.id)

/-- The methods of supertypes that a method overrides or implements. -/
def superMethodsOf (m : MethodId) : List MethodId :=
  if m.name = constructorName then []
  else ((supertypesOf types m.owner).filterMap types.get?).filterMap
    (fun d => (sameSignature? d m).map MethodDecl.id)

end TypeTable

end FieldTrace
