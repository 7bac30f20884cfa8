import FieldTrace.Proofs.Declarations
import FieldTrace.Proofs.Lineage
import Mathlib.Data.List.Perm.Basic

/-! # The order of the files

All types are registered before any name is read. Where no qualified name is declared twice, none of
the declared types (`Registry.declarations`) is left out, so two orders of the same files register
the same types in two orders. Where no simple name is shared either, no lookup of a name can tell the
two registries apart (`Registry.SameLookups`), and so all that is read through them is the same:
type expressions, fields, methods, supertypes, and the subtype relation. -/

namespace FieldTrace

open Syntax

/-- Two orders of values with different keys hold the same value at a key. -/
theorem filter_eq_of_perm {α κ : Type} [DecidableEq κ] {key : α → κ} {xs ys : List α}
    (hperm : xs.Perm ys) (hkeys : (xs.map key).Nodup) (k : κ) :
    xs.filter (fun x => key x = k) = ys.filter (fun y => key y = k) := by
  induction hperm with
  | nil => rfl
  | cons x _ ih => rw [List.filter_cons, List.filter_cons, ih (List.nodup_cons.1 hkeys).2]
  | swap x y xs =>
    have hne : key y ≠ key x := fun heq =>
      (List.nodup_cons.1 hkeys).1 (heq ▸ List.mem_cons_self)
    by_cases hy : key y = k
    · have hx : key x ≠ k := fun hx => hne (hy.trans hx.symm)
      simp [hx, hy]
    · simp [List.filter_cons, hy]
  | trans h₁ _ ih₁ ih₂ => exact (ih₁ hkeys).trans (ih₂ ((h₁.map key).nodup_iff.1 hkeys))

namespace Registry

/-! ### All that is declared -/

mutual

/-- The type that a node declares and the types inside it. -/
def declaredAt (f : SourceFile) (ctx : NameContext) (outer : Option String) :
    Tree → List Registration
  | .node k r s e cs =>
    match registration? f ctx outer (.node k r s e cs) with
    | none => []
    | some entry => entry :: declaredBody f ctx (some entry.header.name) cs

/-- The types in the body among the children of a declaration. -/
def declaredBody (f : SourceFile) (ctx : NameContext) (outer : Option String) :
    List Tree → List Registration
  | [] => []
  | .node _ r _ _ cs :: rest =>
    if r = .body then declaredMembers f ctx outer cs else declaredBody f ctx outer rest

/-- The types among the members of a body. -/
def declaredMembers (f : SourceFile) (ctx : NameContext) (outer : Option String) :
    List Tree → List Registration
  | [] => []
  | .node k r s e cs :: rest =>
    if k = .enumBodyDeclarations then
      declaredAll f ctx outer cs ++ declaredMembers f ctx outer rest
    else declaredAt f ctx outer (.node k r s e cs) ++ declaredMembers f ctx outer rest

/-- The types that a list of nodes declares. -/
def declaredAll (f : SourceFile) (ctx : NameContext) (outer : Option String) :
    List Tree → List Registration
  | [] => []
  | t :: rest => declaredAt f ctx outer t ++ declaredAll f ctx outer rest

end

/-- The types that some files declare, from top to bottom and with every declaration of a name. -/
def declarations (files : List SourceFile) : List Registration :=
  files.flatMap (fun f => declaredAll f (.ofFile f) none f.tree.children)

theorem declarations_perm {files files' : List SourceFile} (h : files.Perm files') :
    (declarations files).Perm (declarations files') :=
  h.flatMap_right _

/-- If all names differ, the second registry lists some types after those of the first. -/
def Adds (rs : List Registration) (reg reg' : Registry) : Prop :=
  (reg.types.keys ++ rs.map (fun r => r.header.name)).Nodup →
    reg'.types.entries = reg.types.entries ++ rs.map (fun r => (r.header.name, r))

namespace Adds

variable {rs rs' : List Registration} {reg reg' reg'' : Registry} {r : Registration}

theorem nil (reg : Registry) : Adds [] reg reg := fun _ => (List.append_nil _).symm

theorem append (h : Adds rs reg reg') (h' : Adds rs' reg' reg'') : Adds (rs ++ rs') reg reg'' := by
  intro hnodup
  rw [List.map_append, ← List.append_assoc] at hnodup
  have hfirst := h (List.nodup_append.1 hnodup).1
  have hkeys : reg'.types.keys = reg.types.keys ++ rs.map (fun r => r.header.name) := by
    simp [Table.keys, hfirst]
  rw [h' (hkeys ▸ hnodup), hfirst, List.map_append, List.append_assoc]

theorem add (r : Registration) (hnew : reg.isType r.header.name = false) :
    Adds [r] reg (reg.add r) := by
  intro _
  refine Table.entries_alter_of_notMem ?_
  rw [← Table.contains_iff]
  exact Bool.eq_false_iff.1 hnew

/-- Where a name is taken nothing is said. -/
theorem taken (htaken : reg.isType r.header.name = true) : Adds (r :: rs) reg reg' := by
  intro hnodup
  exact absurd rfl ((List.nodup_append.1 hnodup).2.2 _ ((Table.contains_iff _ _).1 htaken) _
    List.mem_cons_self)

end Adds

/-! What the four functions that register a file add is what the file declares. A name that is taken
would cost the types inside it too, but then some name is there twice. -/

section

variable (f : SourceFile) (ctx : NameContext)

mutual

theorem adds_registerAt (outer : Option String) (reg : Registry) :
    ∀ t : Tree, Adds (declaredAt f ctx outer t) reg (reg.registerAt f ctx outer t)
  | .node k r s e cs => by
    rw [registerAt, declaredAt]
    cases registration? f ctx outer (.node k r s e cs) with
    | none => exact .nil reg
    | some entry =>
      dsimp only
      split
      next htaken => exact .taken htaken
      next hnew =>
        exact (Adds.add entry (Bool.eq_false_iff.2 hnew)).append
          (adds_registerBody (some entry.header.name) (reg.add entry) cs)

theorem adds_registerBody (outer : Option String) (reg : Registry) :
    ∀ ts : List Tree, Adds (declaredBody f ctx outer ts) reg (reg.registerBody f ctx outer ts)
  | [] => .nil reg
  | .node _ r _ _ cs :: rest => by
    rw [registerBody, declaredBody]
    split
    · exact adds_registerMembers outer reg cs
    · exact adds_registerBody outer reg rest

theorem adds_registerMembers (outer : Option String) (reg : Registry) :
    ∀ ts : List Tree, Adds (declaredMembers f ctx outer ts) reg (reg.registerMembers f ctx outer ts)
  | [] => .nil reg
  | .node k r s e cs :: rest => by
    rw [registerMembers, declaredMembers]
    split
    · exact (adds_registerAll outer reg cs).append (adds_registerMembers outer _ rest)
    · exact (adds_registerAt outer reg (.node k r s e cs)).append
        (adds_registerMembers outer _ rest)

theorem adds_registerAll (outer : Option String) (reg : Registry) :
    ∀ ts : List Tree, Adds (declaredAll f ctx outer ts) reg (reg.registerAll f ctx outer ts)
  | [] => .nil reg
  | t :: rest => by
    rw [registerAll, declaredAll]
    exact (adds_registerAt outer reg t).append (adds_registerAll outer _ rest)

end

end

theorem adds_foldl_addFile (files : List SourceFile) (reg : Registry) :
    Adds (declarations files) reg (files.foldl addFile reg) := by
  induction files generalizing reg with
  | nil => exact .nil reg
  | cons f files ih =>
    exact (adds_registerAll f (.ofFile f) none reg f.tree.children).append (ih (reg.addFile f))

/-- Where no name is declared twice, every declared type is registered, in order. -/
theorem entries_ofFiles {files : List SourceFile}
    (h : ((declarations files).map (fun r => r.header.name)).Nodup) :
    (ofFiles files).types.entries = (declarations files).map (fun r => (r.header.name, r)) :=
  adds_foldl_addFile files {} h

/-! ### Registries that no lookup tells apart -/

/-- The same types are found by name and by simple name, in whatever order they are listed. -/
structure SameLookups (reg reg' : Registry) : Prop where
  get? : ∀ name, reg.types.get? name = reg'.types.get? name
  size : reg.types.size = reg'.types.size
  bySimpleName : ∀ simple, reg.bySimpleName.getD simple [] = reg'.bySimpleName.getD simple []

section

variable {files files' : List SourceFile}

/-- Two orders of the same files register the same types. -/
theorem entries_perm (horder : files.Perm files')
    (hnames : ((declarations files).map (fun r => r.header.name)).Nodup) :
    (ofFiles files).types.entries.Perm (ofFiles files').types.entries := by
  have hperm := declarations_perm horder
  rw [entries_ofFiles hnames, entries_ofFiles ((hperm.map _).nodup_iff.1 hnames)]
  exact hperm.map _

theorem headers_ofFiles (hnames : ((declarations files).map (fun r => r.header.name)).Nodup) :
    (ofFiles files).headers = (declarations files).map Registration.header := by
  rw [headers, Table.values, entries_ofFiles hnames, List.map_map, List.map_map]
  rfl

/-- Two orders of the same files are looked up alike. -/
theorem sameLookups_ofFiles (horder : files.Perm files')
    (hnames : ((declarations files).map (fun r => r.header.name)).Nodup)
    (hsimple : ((declarations files).map (fun r => r.header.simpleName)).Nodup) :
    SameLookups (ofFiles files) (ofFiles files') where
  get? :=
    (wellNamed_ofFiles files).get?_eq_of_perm (wellNamed_ofFiles files')
      (entries_perm horder hnames)
  size := (entries_perm horder hnames).length_eq
  bySimpleName simple := by
    have hheaders : (ofFiles files).headers.Perm (ofFiles files').headers :=
      ((entries_perm horder hnames).map _).map _
    have hkeys : ((ofFiles files).headers.map TypeHeader.simpleName).Nodup := by
      rw [headers_ofFiles hnames, List.map_map]
      exact hsimple
    -- at most one type has the simple name, so there is nothing to be listed in another order
    rw [bySimpleName_ofFiles, bySimpleName_ofFiles, filter_eq_of_perm hheaders hkeys]

end

namespace SameLookups

variable {reg reg' : Registry} (h : SameLookups reg reg')

include h

theorem isType_eq : reg.isType = reg'.isType := by
  funext name
  rw [isType, isType, Table.contains, Table.contains, h.get?]

theorem enclosing_eq : reg.enclosing = reg'.enclosing := by
  have hwithin : ∀ bound name, reg.enclosingWithin bound name = reg'.enclosingWithin bound name := by
    intro bound
    induction bound with
    | zero => exact fun _ => rfl
    | succ bound ih =>
      intro name
      rw [enclosingWithin, enclosingWithin, h.get?]
      simp only [ih]
  funext name
  rw [enclosing, enclosing, h.size, hwithin]

theorem qualify_eq (ctx : NameContext) (chain : List String) :
    reg.qualify ctx chain = reg'.qualify ctx chain := by
  have hsimple : reg.qualifySimple ctx chain = reg'.qualifySimple ctx chain := by
    funext name
    simp only [qualifySimple, h.isType_eq, h.bySimpleName]
  have hwithin : ∀ bound text,
      reg.qualifyWithin ctx chain bound text = reg'.qualifyWithin ctx chain bound text := by
    intro bound
    induction bound with
    | zero => exact fun _ => rfl
    | succ bound ih =>
      intro text
      unfold qualifyWithin
      simp only [ih, h.isType_eq, hsimple]
  funext text
  exact hwithin _ text

end SameLookups

end Registry

/-! ### Type expressions -/

/-- Two scopes read the same text and resolve it to the same names. -/
structure NameScope.SameNames (s s' : NameScope) : Prop where
  file : s.file = s'.file
  qualify : s.qualify = s'.qualify

theorem Registry.SameLookups.sameNames {reg reg' : Registry} (h : reg.SameLookups reg')
    (file : SourceFile) (ctx : NameContext) (chain : List String) :
    NameScope.SameNames ⟨reg, file, ctx, chain⟩ ⟨reg', file, ctx, chain⟩ :=
  ⟨rfl, h.qualify_eq ctx chain⟩

namespace NameScope

variable {s s' : NameScope}

namespace SameNames

theorem text_eq (h : SameNames s s') : s.text = s'.text := by
  funext t
  rw [text, text, h.file]

mutual

theorem typeRef_eq (h : SameNames s s') : ∀ t : Tree, s.typeRef t = s'.typeRef t
  | .node k r a b cs => by
    unfold typeRef
    rw [h.text_eq, h.qualify, genericElement_eq h none cs, elementName_eq h cs, lastNamed_eq h cs]

theorem genericElement_eq (h : SameNames s s') (found : Option String) :
    ∀ ts : List Tree, s.genericElement found ts = s'.genericElement found ts
  | [] => rfl
  | .node k _ _ _ args :: rest => by
    rw [genericElement, genericElement, firstArgument_eq h args, genericElement_eq h _ rest,
      genericElement_eq h found rest]

theorem firstArgument_eq (h : SameNames s s') :
    ∀ ts : List Tree, s.firstArgument ts = s'.firstArgument ts
  | [] => rfl
  | .node k r a b bounds :: rest => by
    rw [firstArgument, firstArgument, lastBound_eq h bounds, firstArgument_eq h rest,
      typeRef_eq h (.node k r a b bounds)]

theorem lastBound_eq (h : SameNames s s') : ∀ ts : List Tree, s.lastBound ts = s'.lastBound ts
  | [] => rfl
  | t :: rest => by rw [lastBound, lastBound, lastBound_eq h rest, typeRef_eq h t]

theorem elementName_eq (h : SameNames s s') :
    ∀ ts : List Tree, s.elementName ts = s'.elementName ts
  | [] => rfl
  | t :: rest => by rw [elementName, elementName, typeRef_eq h t, elementName_eq h rest]

theorem lastNamed_eq (h : SameNames s s') : ∀ ts : List Tree, s.lastNamed ts = s'.lastNamed ts
  | [] => rfl
  | t :: rest => by rw [lastNamed, lastNamed, lastNamed_eq h rest, typeRef_eq h t]

end

end SameNames

end NameScope

/-! ### Declarations -/

namespace Declare

section

variable {s s' : NameScope} (h : s.SameNames s')

include h

theorem field?_eq : field? s = field? s' := by
  funext owner isStatic typed named
  simp only [field?, h.typeRef_eq, h.text_eq, h.file]

theorem fields_eq : fields s = fields s' := by
  have hrecord : recordFields s = recordFields s' := by
    funext header t
    simp only [recordFields, field?_eq h]
  have hmember : memberFields s = memberFields s' := by
    funext owner t
    simp only [memberFields, field?_eq h]
  funext header t
  rw [fields, fields, hrecord, hmember]

theorem methods_eq : methods s = methods s' := by
  have hparameter : parameter? s = parameter? s' := by
    funext t
    simp only [parameter?, parameterName, h.typeRef_eq, h.text_eq]
  have htype : s.typeRef = s'.typeRef := funext h.typeRef_eq
  have hmethod : method? s = method? s' := by
    funext header annotations t
    rw [method?, method?, hparameter, htype, h.text_eq, h.file]
  funext header annotations t
  rw [methods, methods, hmethod]

end

variable {reg reg' : Registry} (h : reg.SameLookups reg')

include h

theorem sameNames_scopeOf (r : Registration) : (scopeOf reg r).SameNames (scopeOf reg' r) := by
  rw [scopeOf, scopeOf, h.enclosing_eq]
  exact h.sameNames r.file r.context (reg'.enclosing r.header.name)

theorem sameNames_supertypeScope (r : Registration) :
    (supertypeScope (scopeOf reg r)).SameNames (supertypeScope (scopeOf reg' r)) := by
  rw [scopeOf, scopeOf, h.enclosing_eq]
  generalize reg'.enclosing r.header.name = chain
  -- a type that is nested is left out of the chain, any other stays in it
  rcases chain with _ | ⟨inner, _ | ⟨outer, rest⟩⟩ <;> exact h.sameNames r.file r.context _

/-- A type is declared alike in both. -/
theorem typeOf_eq : typeOf reg = typeOf reg' := by
  funext r
  have hscope := sameNames_scopeOf h r
  simp only [typeOf, methodsOf, (sameNames_supertypeScope h r).typeRef_eq, fields_eq hscope,
    methods_eq hscope]

end Declare

/-! ### Subtypes -/

namespace TypeTable

/-- The order of the types decides in which order supertypes are listed, and not which there are. -/
theorem isSubtype_eq_of_perm {types types' : TypeTable} (h : types.WellNamed)
    (h' : types'.WellNamed) (hperm : types.entries.Perm types'.entries) :
    types.isSubtype = types'.isSubtype := by
  have hnext : types.directSupertypes = types'.directSupertypes := by
    funext name
    rw [directSupertypes, directSupertypes, h.get?_eq_of_perm h' hperm]
  have hsize : types.size = types'.size := hperm.length_eq
  funext name ancestor
  rw [isSubtype, isSubtype, Bool.eq_iff_iff]
  simp only [Bool.or_eq_true, List.contains_iff_mem, mem_supertypesOf, hnext, hsize]

end TypeTable

namespace Index

/-- Where no two types share a name or a simple name, the order of the files decides in which order
the types are listed, and nothing else about them. -/
theorem declarations_independent_of_order {files files' : List SourceFile}
    (skipped skipped' : List String) (horder : files.Perm files')
    (hnames : ((Registry.declarations files).map (fun r => r.header.name)).Nodup)
    (hsimple : ((Registry.declarations files).map (fun r => r.header.simpleName)).Nodup) :
    (ofFiles files skipped).types.keys =
        (Registry.declarations files).map (fun r => r.header.name) ∧
      (ofFiles files skipped).types.entries.Perm (ofFiles files' skipped').types.entries ∧
      (∀ name, (ofFiles files skipped).typeDecl name = (ofFiles files' skipped').typeDecl name) ∧
      ∀ name ancestor, (ofFiles files skipped).types.isSubtype name ancestor =
        (ofFiles files' skipped').types.isSubtype name ancestor := by
  have hlookups := Registry.sameLookups_ofFiles horder hnames hsimple
  have hperm : (ofFiles files skipped).types.entries.Perm
      (ofFiles files' skipped').types.entries := by
    rw [(declared_ofFiles files skipped).1, (declared_ofFiles files' skipped').1]
    simp only [declare, Table.mapValues, Declare.typeOf_eq hlookups]
    exact (Registry.entries_perm horder hnames).map _
  have hnamed := wellNamed_ofFiles files skipped
  have hnamed' := wellNamed_ofFiles files' skipped'
  refine ⟨?_, hperm, hnamed.get?_eq_of_perm hnamed' hperm, fun name ancestor => ?_⟩
  · rw [(declared_ofFiles files skipped).1]
    simp [declare, Table.mapValues, Table.keys, Registry.entries_ofFiles hnames]
  · rw [TypeTable.isSubtype_eq_of_perm hnamed hnamed' hperm]

end Index

/-! Two files that name each other's type, which only the table of simple names can resolve. -/

namespace Mutual

def first : SourceFile where
  path := "A.java"
  bytes := "package p;class A extends B\x7b\x7d".toUTF8.data
  tree := .node (.other "program") .none 0 29 [
    .node .packageDeclaration .none 0 10 [.node .identifier .none 8 9 []],
    .node .classDeclaration .none 10 29 [
      .node .identifier .name 16 17 [],
      .node .superclass .none 18 27 [.node .typeIdentifier .none 26 27 []],
      .node (.other "class_body") .body 27 29 []]]

def second : SourceFile where
  path := "B.java"
  bytes := "class B\x7bA a;\x7d".toUTF8.data
  tree := .node (.other "program") .none 0 13 [
    .node .classDeclaration .none 0 13 [
      .node .identifier .name 6 7 [],
      .node (.other "class_body") .body 7 13 [
        .node .fieldDeclaration .none 8 12 [
          .node .typeIdentifier .type 8 9 [],
          .node .variableDeclarator .declarator 10 11 [.node .identifier .name 10 11 []]]]]]

end Mutual

/-- The types are listed in the order of the files, and hold the same either way. -/
theorem declarations_independent_of_order_mutual :
    (Index.ofFiles [Mutual.first, Mutual.second] []).types.keys = ["p.A", "B"] ∧
      (Index.ofFiles [Mutual.second, Mutual.first] []).types.keys = ["B", "p.A"] ∧
      (Index.ofFiles [Mutual.first, Mutual.second] []).types.isSubtype "p.A" "B" = true ∧
      (Index.ofFiles [Mutual.second, Mutual.first] []).types.isSubtype "p.A" "B" = true ∧
      (Index.ofFiles [Mutual.first, Mutual.second] []).typeDecl "B" =
        (Index.ofFiles [Mutual.second, Mutual.first] []).typeDecl "B" ∧
      ((Index.ofFiles [Mutual.second, Mutual.first] []).typeDecl "B").map
        (fun d => d.fields.values.map FieldDecl.typeName) = some ["p.A"] := by
  have horder : [Mutual.first, Mutual.second].Perm [Mutual.second, Mutual.first] := .swap _ _ []
  obtain ⟨hkeys, -, htypes, hsubtypes⟩ :=
    Index.declarations_independent_of_order [] [] horder (by decide +kernel) (by decide +kernel)
  have hsubtype : (Index.ofFiles [Mutual.first, Mutual.second] []).types.isSubtype "p.A" "B" =
      true := by decide +kernel
  refine ⟨hkeys.trans (by decide +kernel), by decide +kernel, hsubtype,
    (hsubtypes _ _).symm.trans hsubtype, htypes "B", by decide +kernel⟩

end FieldTrace
