import FieldTrace.Proofs.RecordedCalls
import FieldTrace.Proofs.TypeArguments

/-! # Overloads

The identity of a method holds the types of its parameters as they are read. Overloads are told
apart by the erasures of these types, which have a name and a number of dimensions. What is read may
be less than the erasure: pairs of brackets after the first or after the name of a parameter are
passed over, a member of a class type with arguments is read as that class type, a type variable by
its name without its bound, and a comment before the type of a parameter of variable arity takes the
place of the type. Where none of this is the case overloads are kept apart if the names of their types
differ once they are qualified (`Parameter.Apart`).

Qualifying can make one name of two. A simple name that neither an import nor a type around it
explains is taken for the first type of the project with that simple name, so that the `Date` of a
wildcard import and a `model.Date` of the project are the same type here. -/

namespace FieldTrace

open Syntax

/-! ### Erased types -/

/-- A type without arguments: a name and the number of dimensions. -/
structure ErasedType where
  base : String
  dims : Nat
  deriving DecidableEq

namespace ErasedType

/-- The type of arrays with some more dimensions. -/
def arrayOf (e : ErasedType) (n : Nat) : ErasedType := { e with dims := e.dims + n }

/-- Pairs of brackets one after the other. -/
def brackets : Nat → String
  | 0 => ""
  | n + 1 => brackets n ++ "[]"

def text (e : ErasedType) : String := e.base ++ brackets e.dims

theorem text_mk_zero (base : String) : text ⟨base, 0⟩ = base := String.append_empty

theorem text_arrayOf_one (e : ErasedType) : (e.arrayOf 1).text = e.text ++ "[]" := by
  rw [text, arrayOf, brackets, text, String.append_assoc]

/-- The name does not end with a bracket. -/
def Proper (e : ErasedType) : Prop := e.base.toList.getLast? ≠ some ']'

theorem Proper.arrayOf {e : ErasedType} (h : e.Proper) (n : Nat) : (e.arrayOf n).Proper := h

/-- Types with the same text are the same. -/
theorem Proper.eq_of_text_eq {e e' : ErasedType} (h : e.Proper) (h' : e'.Proper)
    (heq : e.text = e'.text) : e = e' := by
  obtain ⟨base, n⟩ := e
  obtain ⟨base', n'⟩ := e'
  have hends : ∀ (s : String) (k : Nat),
      (s ++ (brackets k ++ "[]")).toList.getLast? = some ']' := by
    intro s k
    simp
  unfold text at heq
  induction n generalizing n' with
  | zero =>
    cases n' with
    | zero => simpa [brackets] using heq
    | succ n' =>
      refine absurd ?_ h
      have hbase : base = base' ++ (brackets n' ++ "[]") := by simpa [brackets] using heq
      rw [hbase]
      exact hends _ _
  | succ n ih =>
    cases n' with
    | zero =>
      refine absurd ?_ h'
      have hbase : base' = base ++ (brackets n ++ "[]") := by simpa [brackets] using heq.symm
      rw [hbase]
      exact hends _ _
    | succ n' =>
      have hrest : base ++ brackets n = base' ++ brackets n' := by
        rw [← String.toList_inj]
        have hlists := congrArg String.toList heq
        simpa [brackets, ← List.append_assoc] using hlists
      cases ih h n' h' hrest
      rfl

end ErasedType

/-! ### Parameter types -/

/-- A pair of brackets. -/
structure Brackets where
  before : Blanks
  inside : Blanks

namespace Brackets

def text (b : Brackets) : String := b.before.text ++ "[" ++ b.inside.text ++ "]"

def textAll (bs : List Brackets) : String := String.join (bs.map text)

end Brackets

/-- A type as it is written: a class type, a type variable, with its bound, a primitive type, or an
array type. Annotations are left out. -/
inductive TypeExpr where
  | named (type : ClassType)
  | typeVariable (id : Identifier) (bound : ClassType)
  | primitive (id : Identifier)
  | array (element : TypeExpr) (first : Brackets) (more : List Brackets)
  | annotated (type : TypeExpr)

namespace TypeExpr

/-- What is read of the type. -/
def read (s : NameScope) : TypeExpr → ErasedType
  | named type => ⟨s.qualify type.leading.text, 0⟩
  | typeVariable id _ => ⟨s.qualify id.text, 0⟩
  | primitive id => ⟨id.text, 0⟩
  | array element _ _ => (element.read s).arrayOf 1
  | annotated type => type.read s

/-- The erasure of the type: type arguments are deleted, and a type variable stands for its
bound. -/
def erasure (s : NameScope) : TypeExpr → ErasedType
  | named type => ⟨s.qualify type.erase.text, 0⟩
  | typeVariable _ bound => ⟨s.qualify bound.erase.text, 0⟩
  | primitive id => ⟨id.text, 0⟩
  | array element _ more => (element.erasure s).arrayOf (more.length + 1)
  | annotated type => type.erasure s

/-- The name is read as it is: type arguments come last, and it is no type variable. -/
def keepsName : TypeExpr → Bool
  | named type => type.argumentsLast
  | typeVariable _ _ => false
  | primitive _ => true
  | array element _ _ => element.keepsName
  | annotated type => type.keepsName

/-- All dimensions are read: brackets come one pair at a time. -/
def keepsDims : TypeExpr → Bool
  | named _ => true
  | typeVariable _ _ => true
  | primitive _ => true
  | array element _ more => element.keepsDims && more.isEmpty
  | annotated type => type.keepsDims

/-- The type is what a tree of a file says. -/
inductive ReadFrom (f : SourceFile) : Tree → TypeExpr → Prop where
  | named {t : Tree} {type : ClassType} (htype : type.ReadFrom f t) : ReadFrom f t (.named type)
  | typeVariable {t : Tree} {id : Identifier} {bound : ClassType} (hkind : t.kind = .typeIdentifier)
    (htext : f.text t = id.text) : ReadFrom f t (.typeVariable id bound)
  | primitive {t : Tree} {id : Identifier} {name : String} (hkind : t.kind = .other name)
    (htext : f.text t = id.text) : ReadFrom f t (.primitive id)
  | array {t e d : Tree} {element : TypeExpr} {first : Brackets} {more : List Brackets}
    (hkind : t.kind = .arrayType) (he : t.child? .element = some e)
    (helement : ReadFrom f e element) (hd : t.child? (.other "dimensions") = some d)
    (hdims : f.text d = Brackets.textAll (first :: more)) :
    ReadFrom f t (.array element first more)
  | annotated {t e : Tree} {type : TypeExpr} (hkind : t.kind = .annotatedType)
    (he : t.namedChildren.getLast? = some e) (htype : ReadFrom f e type) :
    ReadFrom f t (.annotated type)

theorem base_read {s : NameScope} {type : TypeExpr} (h : type.keepsName = true) :
    (type.read s).base = (type.erasure s).base := by
  induction type with
  | named type => rw [read, erasure, ClassType.leading_eq_erase h]
  | typeVariable => cases h
  | primitive => rfl
  | array element first more ih => exact ih h
  | annotated type ih => exact ih h

theorem dims_read {s : NameScope} {type : TypeExpr} (h : type.keepsDims = true) :
    (type.read s).dims = (type.erasure s).dims := by
  induction type with
  | named => rfl
  | typeVariable => rfl
  | primitive => rfl
  | array element first more ih =>
    obtain ⟨helement, hmore⟩ := Bool.and_eq_true_iff.1 h
    rw [read, erasure, ErasedType.arrayOf, ErasedType.arrayOf, ih helement,
      List.isEmpty_iff.1 hmore]
    rfl
  | annotated type ih => exact ih h

end TypeExpr

namespace NameScope

variable (s : NameScope)

theorem elementName_eq_find? (ts : List Tree) :
    s.elementName ts =
      (ts.find? (fun t => t.role = .element)).map (fun t => (s.typeRef t).name) := by
  induction ts with
  | nil => rfl
  | cons t ts ih =>
    rw [elementName, List.find?_cons]
    by_cases h : t.role = .element
    · rw [if_pos h, decide_eq_true h]
      rfl
    · rw [if_neg h, decide_eq_false h, ih]

theorem lastNamed_eq_getLast? (ts : List Tree) :
    s.lastNamed ts = ((ts.filter Tree.isNamed).getLast?).map s.typeRef := by
  induction ts with
  | nil => rfl
  | cons t ts ih =>
    rw [lastNamed, ih, List.filter_cons]
    by_cases h : t.isNamed = true
    · rw [if_pos h, if_pos h, List.getLast?_cons]
      cases (ts.filter Tree.isNamed).getLast? <;> rfl
    · rw [if_neg h, if_neg h, Option.or_none]

/-- A node of another kind is read by its text. -/
theorem typeRef_name_of_notMem {t : Tree} (h : t.kind ∉ [.genericType, .arrayType, .typeIdentifier,
    .scopedTypeIdentifier, .annotatedType]) : (s.typeRef t).name = s.text t := by
  obtain ⟨k, r, a, b, cs⟩ := t
  rw [typeRef] <;> exact fun hk => h (by simp [Tree.kind, hk])

variable {s}

theorem typeRef_name_of_arrayType {t e : Tree} (h : t.kind = .arrayType)
    (he : t.child? .element = some e) : (s.typeRef t).name = (s.typeRef e).name ++ "[]" := by
  obtain ⟨k, r, a, b, cs⟩ := t
  obtain rfl : k = .arrayType := h
  have hfound : s.elementName cs = some (s.typeRef e).name := by
    rw [elementName_eq_find?]
    exact congrArg (Option.map _) he
  rw [typeRef, hfound, Option.getD_some]

theorem typeRef_of_annotatedType {t e : Tree} (h : t.kind = .annotatedType)
    (he : t.namedChildren.getLast? = some e) : s.typeRef t = s.typeRef e := by
  obtain ⟨k, r, a, b, cs⟩ := t
  obtain rfl : k = .annotatedType := h
  have hfound : s.lastNamed cs = some (s.typeRef e) := by
    rw [lastNamed_eq_getLast?]
    exact congrArg (Option.map _) he
  rw [typeRef, hfound, Option.getD_some]

end NameScope

namespace TypeExpr

variable {s : NameScope} {t : Tree} {type : TypeExpr}

/-- What is read of a type is the name by which the type goes. -/
theorem ReadFrom.typeRef_name (h : ReadFrom s.file t type) :
    (s.typeRef t).name = (type.read s).text := by
  induction h with
  | named htype =>
    rw [htype.typeRef_name, read, ErasedType.text_mk_zero]
  | typeVariable hkind htext =>
    rw [NameScope.typeRef_name_of_unapplied (.inl hkind), NameScope.text, htext, read,
      ErasedType.text_mk_zero]
  | primitive hkind htext =>
    rw [NameScope.typeRef_name_of_notMem s (by simp [hkind]), NameScope.text, htext, read,
      ErasedType.text_mk_zero]
  | array hkind he helement hd hdims ih =>
    rw [NameScope.typeRef_name_of_arrayType hkind he, ih, read, ErasedType.text_arrayOf_one]
  | annotated hkind he htype ih =>
    rw [NameScope.typeRef_of_annotatedType hkind he, ih, read]

/-- A name that is read as it is does not end with a bracket. -/
theorem proper_read (hfiled : s.registry.FiledSimply s.context) (h : type.keepsName = true) :
    (type.read s).Proper := by
  have hid : ∀ id : Identifier, id.text.toList.getLast? ≠ some ']' :=
    fun id hlast => id.notMem (by decide) (List.mem_of_getLast? hlast)
  induction type with
  | named type =>
    -- a qualified name ends with the simple name
    obtain ⟨blanks, hsimple⟩ := ClassType.exists_simpleName_qualify hfiled type.hasArguments_leading
    obtain ⟨before, htext⟩ := Text.exists_eq_append_afterLast '.' (s.qualify type.leading.text)
    have hbase : s.qualify type.leading.text =
        before ++ blanks.text ++ type.leading.simple.text := by
      rw [String.append_assoc, ← hsimple]
      exact htext
    rw [ErasedType.Proper, read, hbase, Identifier.getLast?_append]
    exact hid _
  | typeVariable => cases h
  | primitive id => exact hid id
  | array element first more ih => exact (ih h).arrayOf _
  | annotated type ih => exact ih h

end TypeExpr

/-! ### Parameters -/

/-- A parameter with its type and pairs of brackets after its name, or a parameter of variable arity
with comments before its type. -/
inductive Parameter where
  | formal (type : TypeExpr) (dims : List Brackets)
  | spread (comments : List String) (type : TypeExpr)

namespace Parameter

/-- What is read of the type of the parameter. -/
def read (s : NameScope) : Parameter → ErasedType
  | formal type _ => type.read s
  | spread [] type => (type.read s).arrayOf 1
  | spread (comment :: _) _ => ⟨comment, 1⟩

/-- The erasure of the type of the parameter. -/
def erasure (s : NameScope) : Parameter → ErasedType
  | formal type dims => (type.erasure s).arrayOf dims.length
  | spread _ type => (type.erasure s).arrayOf 1

/-- The name of the type is read as it is. -/
def keepsName : Parameter → Bool
  | formal type _ => type.keepsName
  | spread comments type => comments.isEmpty && type.keepsName

/-- All dimensions of the type are read. -/
def keepsDims : Parameter → Bool
  | formal type dims => type.keepsDims && dims.isEmpty
  | spread comments type => comments.isEmpty && type.keepsDims

/-- The parameter is what a tree of a file says. -/
inductive ReadFrom (f : SourceFile) : Tree → Parameter → Prop where
  | formal {t e : Tree} {type : TypeExpr} {dims : List Brackets}
    (hkind : t.kind = .formalParameter) (he : t.child? .type = some e)
    (htype : type.ReadFrom f e)
    (hdims : ((t.child? (.other "dimensions")).map f.text).getD "" = Brackets.textAll dims) :
    ReadFrom f t (.formal type dims)
  | spread {t e : Tree} {type : TypeExpr} {comments rest : List Tree}
    (hkind : t.kind = .spreadParameter)
    (hparts : t.namedChildren.filter
      (fun c => c.kind ≠ .modifiers && c.kind ≠ .variableDeclarator) = comments ++ e :: rest)
    (hcomments : ∀ c ∈ comments, c.kind.isComment = true) (htype : type.ReadFrom f e) :
    ReadFrom f t (.spread (comments.map f.text) type)

variable {s : NameScope} {t : Tree} {p p' : Parameter}

theorem base_read (h : p.keepsName = true) : (p.read s).base = (p.erasure s).base := by
  cases p with
  | formal type dims => exact TypeExpr.base_read h
  | spread comments type =>
    obtain ⟨hcomments, htype⟩ := Bool.and_eq_true_iff.1 h
    rw [List.isEmpty_iff.1 hcomments]
    exact TypeExpr.base_read htype

theorem dims_read (h : p.keepsDims = true) : (p.read s).dims = (p.erasure s).dims := by
  cases p with
  | formal type dims =>
    obtain ⟨htype, hdims⟩ := Bool.and_eq_true_iff.1 h
    rw [List.isEmpty_iff.1 hdims]
    exact TypeExpr.dims_read htype
  | spread comments type =>
    obtain ⟨hcomments, htype⟩ := Bool.and_eq_true_iff.1 h
    rw [List.isEmpty_iff.1 hcomments, read, erasure, ErasedType.arrayOf, ErasedType.arrayOf,
      TypeExpr.dims_read htype]

theorem proper_read (hfiled : s.registry.FiledSimply s.context) (h : p.keepsName = true) :
    (p.read s).Proper := by
  cases p with
  | formal type dims => exact TypeExpr.proper_read hfiled h
  | spread comments type =>
    obtain ⟨hcomments, htype⟩ := Bool.and_eq_true_iff.1 h
    rw [List.isEmpty_iff.1 hcomments]
    exact (TypeExpr.proper_read hfiled htype).arrayOf 1

/-- The erasures have different names, or different numbers of dimensions, and this can be read. -/
structure Differ (s : NameScope) (p p' : Parameter) : Prop where
  name : p.keepsName = true
  name' : p'.keepsName = true
  differ : (p.erasure s).base ≠ (p'.erasure s).base ∨
    p.keepsDims = true ∧ p'.keepsDims = true ∧ (p.erasure s).dims ≠ (p'.erasure s).dims

theorem Differ.text_ne (hfiled : s.registry.FiledSimply s.context) (h : Differ s p p') :
    (p.read s).text ≠ (p'.read s).text := by
  intro heq
  have hread := (proper_read hfiled h.name).eq_of_text_eq (proper_read hfiled h.name') heq
  obtain hbase | ⟨hp, hp', hdims⟩ := h.differ
  · rw [← base_read h.name, ← base_read h.name', hread] at hbase
    exact hbase rfl
  · rw [← dims_read hp, ← dims_read hp', hread] at hdims
    exact hdims rfl

theorem ReadFrom.parameter? (h : ReadFrom s.file t p) :
    (Declare.parameter? s t).map (fun q => q.2.name) = some (p.read s).text := by
  unfold Declare.parameter?
  cases h with
  | formal hkind he htype =>
    rw [if_pos hkind, he, Option.map_some, Option.map_some, htype.typeRef_name, read]
  | @spread e type comments rest hkind hparts hcomments htype =>
    have hformal : t.kind ≠ .formalParameter := by
      rw [hkind]
      decide
    have hfound : t.namedChildren.find? (fun c => c.kind ≠ .modifiers &&
        c.kind ≠ .variableDeclarator) = (comments ++ e :: rest).head? := by
      rw [← hparts, List.head?_filter]
    rw [if_neg hformal, if_pos hkind, Option.map_some, hfound]
    cases comments with
    | nil =>
      rw [List.map_nil, read, ErasedType.text_arrayOf_one, ← htype.typeRef_name]
      rfl
    | cons c cs =>
      -- a comment is read by its text
      have hc : (s.typeRef c).name = s.text c := by
        have hkind := hcomments c List.mem_cons_self
        refine s.typeRef_name_of_notMem (fun hmem => ?_)
        simp only [List.mem_cons, List.not_mem_nil, or_false] at hmem
        obtain hk | hk | hk | hk | hk := hmem <;> rw [hk] at hkind <;> cases hkind
      rw [List.map_cons, read, ← NameScope.text, ← hc]
      rfl

/-- The parameters are those of a method. -/
def AllReadFrom (f : SourceFile) (m : Tree) (ps : List Parameter) : Prop :=
  List.Forall₂ (ReadFrom f) ((Declare.parameterNodes m).filter
    (fun c => c.kind = .formalParameter || c.kind = .spreadParameter)) ps

theorem AllReadFrom.params {m : Tree} {ps : List Parameter} (h : AllReadFrom s.file m ps) :
    ((Declare.parameterNodes m).filterMap (Declare.parameter? s)).map (fun q => q.2.name) =
      ps.map (fun p => (p.read s).text) := by
  unfold AllReadFrom at h
  generalize Declare.parameterNodes m = nodes at h
  induction nodes generalizing ps with
  | nil =>
    cases h
    rfl
  | cons c nodes ih =>
    rw [List.filter_cons] at h
    split at h
    next =>
      obtain _ | ⟨hp, hps⟩ := h
      obtain ⟨q, hq, hname⟩ := Option.map_eq_some_iff.1 hp.parameter?
      rw [List.filterMap_cons_some hq, List.map_cons, List.map_cons, ih hps, hname]
    next hkind =>
      -- other nodes, such as comments, are no parameters
      have hnone : Declare.parameter? s c = none := by
        simp only [Bool.or_eq_true, decide_eq_true_eq, not_or] at hkind
        rw [Declare.parameter?, if_neg hkind.1, if_neg hkind.2]
      rw [List.filterMap_cons_none hnone, ih h]

/-- The parameters differ in number or somewhere in their erasures, where the names of types are
compared as they are qualified. -/
def Apart (s : NameScope) (ps ps' : List Parameter) : Prop :=
  ps.length ≠ ps'.length ∨ ∃ q ∈ ps.zip ps', Differ s q.1 q.2

theorem eq_of_map_eq {α β : Type} {f : α → β} {xs ys : List α} (h : xs.map f = ys.map f) :
    ∀ q ∈ xs.zip ys, f q.1 = f q.2 := by
  induction xs generalizing ys with
  | nil =>
    intro q hq
    cases hq
  | cons x xs ih =>
    intro q hq
    obtain _ | ⟨y, ys⟩ := ys
    · cases hq
    · obtain ⟨hhead, htail⟩ := List.cons.inj h
      obtain rfl | hq := List.mem_cons.1 hq
      · exact hhead
      · exact ih htail q hq

/-- Parameters that are apart are not read alike. -/
theorem Apart.map_read_ne (hfiled : s.registry.FiledSimply s.context) {ps ps' : List Parameter}
    (h : Apart s ps ps') :
    ps.map (fun p => (p.read s).text) ≠ ps'.map (fun p => (p.read s).text) := by
  intro heq
  obtain hlength | ⟨q, hq, hdiffer⟩ := h
  · exact hlength (by simpa using congrArg List.length heq)
  · exact hdiffer.text_ne hfiled (eq_of_map_eq heq q hq)

end Parameter

/-! ### Declared methods -/

namespace Declare

variable {reg : Registry} {r : Registration} {m m' : Tree} {d d' : MethodDecl}
  {ps ps' : List Parameter}

theorem params_of_methodAt (h : methodAt reg r m = some d)
    (hps : Parameter.AllReadFrom r.file m ps) :
    d.id.params = ps.map (fun p => (p.read (scopeOf reg r)).text) := by
  rw [← Parameter.AllReadFrom.params (s := scopeOf reg r) hps]
  unfold methodAt method? at h
  obtain ⟨_, -, h⟩ := Option.bind_eq_some_iff.1 h
  obtain ⟨nameNode, -, h⟩ := Option.bind_eq_some_iff.1 h
  cases h
  rfl

/-- Methods of one name have the same identity if their parameters are read alike. -/
theorem id_eq_iff (h : methodAt reg r m = some d) (h' : methodAt reg r m' = some d')
    (hps : Parameter.AllReadFrom r.file m ps) (hps' : Parameter.AllReadFrom r.file m' ps')
    (hname : d'.id.name = d.id.name) :
    d'.id = d.id ↔ ps'.map (fun p => (p.read (scopeOf reg r)).text) =
      ps.map (fun p => (p.read (scopeOf reg r)).text) := by
  rw [← params_of_methodAt h hps, ← params_of_methodAt h' hps']
  constructor
  · exact congrArg MethodId.params
  · intro hparams
    have howner : d'.id.owner = d.id.owner := (owner_of_method? h').trans (owner_of_method? h).symm
    calc d'.id = ⟨d'.id.owner, d'.id.name, d'.id.params⟩ := rfl
      _ = ⟨d.id.owner, d.id.name, d.id.params⟩ := by rw [howner, hname, hparams]

end Declare

/-- In every project, two methods of one name in one type have the same identity exactly if their
parameters are read alike, and so never if their parameters differ in number, or somewhere in the
qualified name or the dimensions of the erased type where these are read as they are. A method that is
apart from all earlier ones of its name in this way is declared, and its body is recorded as its own.
Types that are different but get the same qualified name are not apart in this sense. -/
theorem overloads_kept_apart (files : List SourceFile) (skipped : List String) {r : Registration}
    (hr : r ∈ (Registry.ofFiles files).types.values) {before after : List Tree} {m : Tree}
    {d : MethodDecl} {ps : List Parameter}
    (hmembers : Declare.members r.node = before ++ m :: after)
    (hd : Declare.methodAt (.ofFiles files) r m = some d)
    (hps : Parameter.AllReadFrom r.file m ps) :
    let s := Declare.scopeOf (.ofFiles files) r
    (∀ m' ∈ Declare.members r.node, ∀ d' ps', Declare.methodAt (.ofFiles files) r m' = some d' →
      Parameter.AllReadFrom r.file m' ps' → d'.id.name = d.id.name →
      (d'.id = d.id ↔
        ps'.map (fun p => (p.read s).text) = ps.map (fun p => (p.read s).text)) ∧
      (Parameter.Apart s ps' ps → d'.id ≠ d.id)) ∧
    ((∀ m' ∈ before, ∀ d', Declare.methodAt (.ofFiles files) r m' = some d' →
        d'.id.name = d.id.name →
        ∃ ps', Parameter.AllReadFrom r.file m' ps' ∧ Parameter.Apart s ps' ps) →
      (Index.ofFiles files skipped).method d.id = some d ∧
      ((m.child? .body).isSome = true →
        { decl := d, node := m, names := s } ∈ Index.bodies (.ofFiles files))) := by
  intro s
  have hfiled : s.registry.FiledSimply s.context := Registry.filedSimply_of_mem_values hr
  have hapart : ∀ m' d' ps', Declare.methodAt (.ofFiles files) r m' = some d' →
      Parameter.AllReadFrom r.file m' ps' → d'.id.name = d.id.name →
      Parameter.Apart s ps' ps → d'.id ≠ d.id := by
    intro m' d' ps' hd' hps' hname h heq
    exact h.map_read_ne hfiled ((Declare.id_eq_iff hd hd' hps hps' hname).1 heq)
  refine ⟨fun m' _ d' ps' hd' hps' hname => ⟨Declare.id_eq_iff hd hd' hps hps' hname,
    hapart m' d' ps' hd' hps' hname⟩, fun hearlier => ?_⟩
  have hfirst : ∀ m' ∈ before, ∀ d', Declare.methodAt (.ofFiles files) r m' = some d' →
      d'.id ≠ d.id := by
    intro m' hm' d' hd' heq
    have hname := congrArg MethodId.name heq
    obtain ⟨ps', hps', h⟩ := hearlier m' hm' d' hd' hname
    exact hapart m' d' ps' hd' hps' hname h heq
  have hmem := Declare.mem_methodsOf_iff.2 ⟨before, after, hmembers, hd, hfirst⟩
  constructor
  · refine Index.method_of_mem_values files skipped (List.mem_flatMap.2
      ⟨Declare.typeOf (.ofFiles files) r, ?_, List.mem_map_of_mem hmem⟩)
    rw [Index.values_types_declare]
    exact List.mem_map_of_mem hr
  · intro hbody
    exact List.mem_flatMap.2 ⟨r, hr, List.mem_map.2 ⟨(d, m), List.mem_filter.2 ⟨hmem, hbody⟩, rfl⟩⟩

namespace Sink

/-- The tree of a method with one parameter of a given type. -/
def put (start : Nat) (type : Tree) : Tree :=
  let stop := type.stop
  .node .methodDeclaration .none start (stop + 7) [
    .node (.other "void_type") .type start (start + 4) [],
    .node .identifier .name (start + 5) (start + 8) [],
    .node (.other "formal_parameters") .parameters (start + 8) (stop + 3) [
      .node .formalParameter .none (start + 9) (stop + 2) [
        type, .node .identifier .name (stop + 1) (stop + 2) []]],
    .node (.other "block") .body (stop + 4) (stop + 7) []]

/-- The tree of an array type. -/
def arrayOfInt (start stop : Nat) : Tree :=
  .node .arrayType .type start stop [
    .node (.other "integral_type") .element start (start + 3) [],
    .node (.other "dimensions") (.other "dimensions") (start + 3) stop []]

def putLine : Tree := put 13 (arrayOfInt 22 27)

def putText : Tree := put 35 (.node .typeIdentifier .type 44 50 [])

def putGrid : Tree := put 58 (arrayOfInt 67 74)

def declaration : Tree :=
  .node .classDeclaration .none 0 83 [
    .node .identifier .name 6 10 [],
    .node (.other "class_body") .body 11 83 [putLine, putText, putGrid]]

/-- A class with three overloads. -/
def file : SourceFile where
  path := "Sink.java"
  bytes := (["class Sink \x7b void put(int[] a) \x7b \x7d ",
    "void put(String a) \x7b \x7d void put(int[][] a) \x7b \x7d \x7d\n"].flatMap
      (fun l => l.toUTF8.data.toList)).toArray
  tree := .node (.other "program") .none 0 84 [declaration]

/-- The class as it is registered. -/
def registered : Registration where
  header := {
    name := Registry.qualifiedName (NameContext.ofFile file).package none
      (file.text (.node .identifier .name 6 10 []))
    simpleName := file.text (.node .identifier .name 6 10 [])
    kind := .classType
    file := file.path
    line := file.line (.node .identifier .name 6 10 [])
    package := (NameContext.ofFile file).package
    outer := none }
  file := file
  context := .ofFile file
  node := declaration

def registry : Registry := .ofFiles [file]

def names : NameScope := Declare.scopeOf registry registered

theorem registered_mem : registered ∈ registry.types.values := List.mem_singleton.2 rfl

def int : Identifier := ⟨"int", by decide, rfl⟩

def string : Identifier := ⟨"String", by decide, rfl⟩

def pair : Brackets := ⟨.none, .none⟩

def line : Parameter := .formal (.array (.primitive int) pair []) []

def text : Parameter := .formal (.named (.name string)) []

def grid : Parameter := .formal (.array (.primitive int) pair [pair]) []

set_option maxRecDepth 100000 in
theorem line_read : Parameter.AllReadFrom file putLine [line] :=
  .cons (.formal rfl rfl (.array rfl rfl (.primitive rfl (by decide +kernel)) rfl
    (by decide +kernel)) (by decide +kernel)) .nil

set_option maxRecDepth 100000 in
theorem text_read : Parameter.AllReadFrom file putText [text] :=
  .cons (.formal rfl rfl (.named (.name rfl (by decide +kernel))) (by decide +kernel)) .nil

set_option maxRecDepth 100000 in
theorem grid_read : Parameter.AllReadFrom file putGrid [grid] :=
  .cons (.formal rfl rfl (.array rfl rfl (.primitive rfl (by decide +kernel)) rfl
    (by decide +kernel)) (by decide +kernel)) .nil

end Sink

set_option maxRecDepth 100000 in
/-- The second overload takes a text, the first one numbers, so that both are kept. -/
theorem overloads_kept_apart_sink :
    ∃ d d', Declare.methodAt Sink.registry Sink.registered Sink.putText = some d ∧
      Declare.methodAt Sink.registry Sink.registered Sink.putLine = some d' ∧ d'.id ≠ d.id ∧
      (Index.ofFiles [Sink.file] []).method d.id = some d ∧
      { decl := d, node := Sink.putText, names := Sink.names } ∈ Index.bodies Sink.registry := by
  have hids : (Declare.methodAt Sink.registry Sink.registered Sink.putText).map MethodDecl.id =
        some ⟨"Sink", "put", ["String"]⟩ ∧
      (Declare.methodAt Sink.registry Sink.registered Sink.putLine).map MethodDecl.id =
        some ⟨"Sink", "put", ["int[]"]⟩ := by
    decide +kernel
  have hnames : (Sink.line.erasure Sink.names).base ≠ (Sink.text.erasure Sink.names).base := by
    decide +kernel
  obtain ⟨d, hd, hid⟩ := Option.map_eq_some_iff.1 hids.1
  obtain ⟨d', hd', hid'⟩ := Option.map_eq_some_iff.1 hids.2
  have hname : d'.id.name = d.id.name := by rw [hid, hid']
  have hapart : Parameter.Apart Sink.names [Sink.line] [Sink.text] :=
    .inr ⟨_, List.mem_cons_self, rfl, rfl, .inl hnames⟩
  have hmembers : Declare.members Sink.registered.node =
      [Sink.putLine] ++ Sink.putText :: [Sink.putGrid] := rfl
  obtain ⟨hpairs, hkept⟩ :=
    overloads_kept_apart [Sink.file] [] Sink.registered_mem hmembers hd Sink.text_read
  obtain ⟨hmethod, hbody⟩ := hkept (fun m' hm' _ _ _ =>
    ⟨[Sink.line], by rw [List.mem_singleton.1 hm']; exact Sink.line_read, hapart⟩)
  exact ⟨d, d', hd, hd', (hpairs Sink.putLine List.mem_cons_self d' [Sink.line] hd' Sink.line_read
    hname).2 hapart, hmethod, hbody rfl⟩

set_option maxRecDepth 100000 in
/-- Arrays with one and with two dimensions are different types, but the third overload is taken for
the first, and its body is dropped. -/
theorem overloads_merged :
    Parameter.AllReadFrom Sink.file Sink.putLine [Sink.line] ∧
      Parameter.AllReadFrom Sink.file Sink.putGrid [Sink.grid] ∧
      Sink.line.erasure Sink.names ≠ Sink.grid.erasure Sink.names ∧
      (Declare.methodAt Sink.registry Sink.registered Sink.putLine).map MethodDecl.id =
        (Declare.methodAt Sink.registry Sink.registered Sink.putGrid).map MethodDecl.id ∧
      (Declare.methodAt Sink.registry Sink.registered Sink.putGrid).isSome = true ∧
      (Index.bodies Sink.registry).map (fun b => b.node.start) =
        [Sink.putLine.start, Sink.putText.start] := by
  refine ⟨Sink.line_read, Sink.grid_read, ?_⟩
  decide +kernel

end FieldTrace
