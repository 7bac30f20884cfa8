import FieldTrace.Index.Basic
import FieldTrace.Proofs.Registration
import Mathlib.Data.List.Nodup

/-! # Members are filed under their names

In the index of a project every type is filed once under its name, and every field of a type once
under the field's name and with the type that declares it (`TypeTable.WellNamed`). So a field that a
lookup finds is among those that are listed, and a field that is listed can be looked up. Methods
are filed by their signatures, where all constructors have one name. -/

namespace FieldTrace

/-! ### Declared types -/

/-- The types are filed under their names, and so are their fields. -/
abbrev TypeTable.WellNamed (types : TypeTable) : Prop :=
  types.Keyed (fun type d => d.fields.Keyed (fun name f => f.ref = ⟨type, name⟩))

namespace Declare

theorem declaringType_of_field? {s : NameScope} {owner : String} {isStatic : Bool}
    {typed named : Syntax.Tree} {f : FieldDecl} (h : field? s owner isStatic typed named = some f) :
    f.declaringType = owner := by
  unfold field? at h
  obtain ⟨typeNode, -, h⟩ := Option.bind_eq_some_iff.1 h
  obtain ⟨nameNode, -, h⟩ := Option.bind_eq_some_iff.1 h
  cases h
  rfl

theorem declaringType_of_mem_memberFields {s : NameScope} {owner : String} {t : Syntax.Tree}
    {f : FieldDecl} (h : f ∈ memberFields s owner t) : f.declaringType = owner := by
  unfold memberFields at h
  split at h
  · obtain ⟨named, -, h⟩ := List.mem_filterMap.1 h
    exact declaringType_of_field? h
  · cases h

theorem declaringType_of_mem_recordFields {s : NameScope} {header : TypeHeader} {t : Syntax.Tree}
    {f : FieldDecl} (h : f ∈ recordFields s header t) : f.declaringType = header.name := by
  unfold recordFields at h
  split at h
  · split at h
    · obtain ⟨p, -, h⟩ := List.mem_filterMap.1 h
      exact declaringType_of_field? h
    · cases h
  · cases h

theorem fields_keyed (s : NameScope) (header : TypeHeader) (t : Syntax.Tree) :
    (fields s header t).Keyed (fun name f => f.ref = ⟨header.name, name⟩) := by
  refine Table.Keyed.foldl_insertNew (fun f hf => ?_) Table.keyed_empty
  have howner : f.declaringType = header.name := by
    obtain hf | hf := List.mem_append.1 hf
    · exact declaringType_of_mem_recordFields hf
    · obtain ⟨member, -, hf⟩ := List.mem_flatMap.1 hf
      exact declaringType_of_mem_memberFields hf
  rw [FieldDecl.ref, howner]

theorem name_of_isConstructor {s : NameScope} {header : TypeHeader} {annotations : List String}
    {t : Syntax.Tree} {d : MethodDecl} (h : method? s header annotations t = some d)
    (hd : d.isConstructor = true) : d.id.name = constructorName := by
  unfold method? at h
  obtain ⟨_, -, h⟩ := Option.bind_eq_some_iff.1 h
  obtain ⟨nameNode, -, h⟩ := Option.bind_eq_some_iff.1 h
  cases h
  exact if_pos hd

theorem owner_of_method? {s : NameScope} {header : TypeHeader} {annotations : List String}
    {t : Syntax.Tree} {d : MethodDecl} (h : method? s header annotations t = some d) :
    d.id.owner = header.name := by
  unfold method? at h
  obtain ⟨_, -, h⟩ := Option.bind_eq_some_iff.1 h
  obtain ⟨nameNode, -, h⟩ := Option.bind_eq_some_iff.1 h
  cases h
  rfl

theorem methods_keyed (s : NameScope) (header : TypeHeader) (annotations : List String)
    (t : Syntax.Tree) :
    (methods s header annotations t).Keyed (fun id m => m.1.id = id ∧ id.owner = header.name ∧
      (m.1.isConstructor = true → id.name = constructorName)) := by
  refine List.foldlRecOn (motive := Table.Keyed _) (members t) _ Table.keyed_empty ?_
  intro table htable member _
  cases hmethod : method? s header annotations member with
  | none => exact htable
  | some d =>
    exact htable.insertNew ⟨rfl, owner_of_method? hmethod, name_of_isConstructor hmethod⟩

/-- The method that a member of a registered type declares. -/
abbrev methodAt (reg : Registry) (r : Registration) (t : Syntax.Tree) : Option MethodDecl :=
  method? (scopeOf reg r) r.header (annotationNames r.file r.node) t

/-- The methods that some members of a registered type declare, each with its node. -/
def methodNodes (reg : Registry) (r : Registration) (ts : List Syntax.Tree) :
    List (MethodDecl × Syntax.Tree) :=
  ts.filterMap (fun t => (methodAt reg r t).map (fun d => (d, t)))

/-- The member is the first one of its type to declare the method. -/
def Declares (reg : Registry) (r : Registration) (t : Syntax.Tree) (d : MethodDecl) : Prop :=
  ∃ before after, members r.node = before ++ t :: after ∧ methodAt reg r t = some d ∧
    ∀ t' ∈ before, ∀ d', methodAt reg r t' = some d' → d'.id ≠ d.id

section

variable {reg : Registry} {r : Registration} {t : Syntax.Tree} {d : MethodDecl}

theorem mem_methodNodes {ts : List Syntax.Tree} :
    (d, t) ∈ methodNodes reg r ts ↔ t ∈ ts ∧ methodAt reg r t = some d := by
  rw [methodNodes, List.mem_filterMap]
  constructor
  · rintro ⟨t', ht', hm⟩
    obtain ⟨d', hd', hm⟩ := Option.map_eq_some_iff.1 hm
    cases hm
    exact ⟨ht', hd'⟩
  · rintro ⟨ht, hd⟩
    exact ⟨t, ht, Option.map_eq_some_iff.2 ⟨d, hd, rfl⟩⟩

/-- The first declaration of an identity is the one that is found by it. -/
theorem declares_iff_find? :
    Declares reg r t d ↔
      (methodNodes reg r (members r.node)).find? (fun m => m.1.id = d.id) = some (d, t) := by
  rw [List.find?_eq_some_iff_append]
  constructor
  · rintro ⟨before, after, hmembers, hd, hfirst⟩
    refine ⟨decide_eq_true rfl, methodNodes reg r before, methodNodes reg r after, ?_, ?_⟩
    · rw [hmembers, methodNodes, List.filterMap_append, List.filterMap_cons_some (by rw [hd]; rfl)]
      rfl
    · intro m hm
      obtain ⟨ht', hd'⟩ := mem_methodNodes.1 hm
      rw [decide_eq_false (hfirst m.2 ht' m.1 hd')]
      rfl
  · rintro ⟨-, as, bs, heq, has⟩
    obtain ⟨before, rest, hmembers, rfl, hrest⟩ := List.filterMap_eq_append_iff.1 heq
    obtain ⟨silent, t', after, rfl, hsilent, ht', -⟩ := List.filterMap_eq_cons_iff.1 hrest
    obtain ⟨d', hd', hm⟩ := Option.map_eq_some_iff.1 ht'
    cases hm
    refine ⟨before ++ silent, after, by rw [hmembers, List.append_assoc], hd', ?_⟩
    intro u hu d' hd' hid
    obtain hu | hu := List.mem_append.1 hu
    · have hother := has (d', u) (mem_methodNodes.2 ⟨hu, hd'⟩)
      rw [decide_eq_true hid] at hother
      cases hother
    · have hnone := hsilent u hu
      rw [hd'] at hnone
      cases hnone

theorem methods_eq_foldl (reg : Registry) (r : Registration) :
    methods (scopeOf reg r) r.header (annotationNames r.file r.node) r.node =
      (methodNodes reg r (members r.node)).foldl (fun table m => table.insertNew m.1.id m) .empty := by
  rw [methodNodes, List.foldl_filterMap, methods]
  congr 1
  funext table m
  unfold methodAt
  cases method? (scopeOf reg r) r.header (annotationNames r.file r.node) m <;> rfl

/-- A type has the methods that its members are the first to declare. -/
theorem mem_methodsOf_iff : (d, t) ∈ methodsOf reg r ↔ Declares reg r t d := by
  have hkeyed := methods_keyed (scopeOf reg r) r.header (annotationNames r.file r.node) r.node
  have hget : (methods (scopeOf reg r) r.header (annotationNames r.file r.node) r.node).get? d.id =
      (methodNodes reg r (members r.node)).find? (fun m => m.1.id = d.id) := by
    rw [methods_eq_foldl]
    refine (Table.get?_foldl_insertNew _ _).trans ?_
    rw [Table.get?_empty, Option.none_or, Option.map_id']
  rw [declares_iff_find?, ← hget]
  exact (hkeyed.mono (fun _ _ h => h.1)).mem_values_iff

/-- The methods of a type are listed in the order in which they are first declared. -/
theorem ids_methodsOf (reg : Registry) (r : Registration) :
    (methodsOf reg r).map (fun m => m.1.id) =
      distinct ((members r.node).filterMap (fun t => (methodAt reg r t).map MethodDecl.id)) := by
  have hkeyed := methods_keyed (scopeOf reg r) r.header (annotationNames r.file r.node) r.node
  have hids : (methodNodes reg r (members r.node)).map (fun m => m.1.id) =
      (members r.node).filterMap (fun t => (methodAt reg r t).map MethodDecl.id) := by
    rw [methodNodes, List.map_filterMap]
    simp only [Option.map_map]
    rfl
  have hempty : (Table.empty : Table MethodId (MethodDecl × Syntax.Tree)).keys = distinct [] := rfl
  rw [methodsOf, (hkeyed.mono (fun _ _ h => h.1)).map_values, methods_eq_foldl, ← hids]
  exact Table.keys_foldl_insertNew _ hempty

end

/-- The methods of a type have different identities. -/
theorem nodup_ids_typeOf (reg : Registry) (r : Registration) :
    ((typeOf reg r).methods.map MethodDecl.id).Nodup := by
  have hkeyed := methods_keyed (scopeOf reg r) r.header (annotationNames r.file r.node) r.node
  have hids : (typeOf reg r).methods.map MethodDecl.id =
      (methods (scopeOf reg r) r.header (annotationNames r.file r.node) r.node).keys := by
    rw [← (hkeyed.mono (fun _ _ h => h.1)).map_values]
    exact List.map_map
  rw [hids]
  exact hkeyed.nodup

theorem owner_of_mem_typeOf {reg : Registry} {r : Registration} {m : MethodDecl}
    (h : m ∈ (typeOf reg r).methods) : m.id.owner = r.header.name := by
  obtain ⟨_, hvalue, rfl⟩ := List.mem_map.1 h
  obtain ⟨e, he, rfl⟩ := List.mem_map.1 hvalue
  obtain ⟨hid, howner, -⟩ := (methods_keyed _ _ _ _).entry e he
  rw [hid]
  exact howner

end Declare

namespace Index

/-- Recording usages leaves the declarations alone. -/
theorem declared_record (idx : Index) (u : Usage) :
    (idx.record u).types = idx.types ∧ (idx.record u).methods = idx.methods ∧
      (idx.record u).registry = idx.registry := by
  unfold record
  cases u with
  | call site =>
    dsimp only
    cases site.resolved <;> exact ⟨rfl, rfl, rfl⟩
  | field target ref => exact ⟨rfl, rfl, rfl⟩
  | methodReference target ref =>
    dsimp only
    cases ref.enclosing <;> exact ⟨rfl, rfl, rfl⟩

theorem declared_ofFiles (files : List Syntax.SourceFile) (skipped : List String) :
    (ofFiles files skipped).types = (declare (Registry.ofFiles files)).types ∧
      (ofFiles files skipped).methods = (declare (Registry.ofFiles files)).methods ∧
      (ofFiles files skipped).registry = Registry.ofFiles files := by
  have hfold : ∀ (usages : List Usage) (idx : Index),
      (usages.foldl record idx).types = idx.types ∧
        (usages.foldl record idx).methods = idx.methods ∧
        (usages.foldl record idx).registry = idx.registry := by
    intro usages
    induction usages with
    | nil => exact fun _ => ⟨rfl, rfl, rfl⟩
    | cons u usages ih =>
      intro idx
      obtain ⟨htypes, hmethods, hregistry⟩ := declared_record idx u
      obtain ⟨htypes', hmethods', hregistry'⟩ := ih (idx.record u)
      exact ⟨htypes'.trans htypes, hmethods'.trans hmethods, hregistry'.trans hregistry⟩
  exact hfold _ _

theorem wellNamed_declare {reg : Registry} (h : reg.WellNamed) : (declare reg).types.WellNamed := by
  refine h.mapValues (fun name r hr => ?_)
  have hfields := Declare.fields_keyed (Declare.scopeOf reg r) r.header r.node
  rw [hr] at hfields
  exact hfields

/-- In the index of a project everything is filed under its name. -/
theorem wellNamed_ofFiles (files : List Syntax.SourceFile) (skipped : List String) :
    (ofFiles files skipped).types.WellNamed := by
  rw [(declared_ofFiles files skipped).1]
  exact wellNamed_declare (Registry.wellNamed_ofFiles files)

/-- The types are filed in the order of their registration. -/
theorem keys_types_ofFiles (files : List Syntax.SourceFile) (skipped : List String) :
    (ofFiles files skipped).types.keys = (ofFiles files skipped).registry.types.keys := by
  obtain ⟨htypes, -, hregistry⟩ := declared_ofFiles files skipped
  rw [htypes, hregistry]
  simp [declare, Table.keys, Table.mapValues]

/-- The types are declared in the order of their registration. -/
theorem values_types_declare (reg : Registry) :
    (declare reg).types.values = reg.types.values.map (Declare.typeOf reg) := by
  simp [declare, Table.values, Table.mapValues]

/-- The method table holds the methods of all types, none of which is dropped. -/
theorem entries_methods_declare {reg : Registry} (h : reg.WellNamed) :
    (declare reg).methods.entries =
      ((declare reg).types.values.flatMap TypeDecl.methods).map (fun m => (m.id, m)) := by
  have hids : (((declare reg).types.values.flatMap TypeDecl.methods).map MethodDecl.id).Nodup := by
    rw [values_types_declare, List.flatMap_map, List.map_flatMap, List.nodup_flatMap]
    refine ⟨fun r _ => Declare.nodup_ids_typeOf reg r, ?_⟩
    have hnames : (reg.types.values.map (fun r => r.header.name)).Nodup := by
      rw [h.map_values]
      exact h.nodup
    refine (List.pairwise_map.1 hnames).imp (fun {r r'} hne => ?_)
    -- types with different names have no method identity in common
    intro id hid hid'
    obtain ⟨m, hm, rfl⟩ := List.mem_map.1 hid
    obtain ⟨m', hm', heq⟩ := List.mem_map.1 hid'
    apply hne
    rw [← Declare.owner_of_mem_typeOf hm, ← Declare.owner_of_mem_typeOf hm', heq]
  exact Table.entries_foldl_insertNew _ hids

/-- Methods are filed under their identities. -/
theorem id_of_method {files : List Syntax.SourceFile} {skipped : List String} {m : MethodId}
    {d : MethodDecl} (h : (ofFiles files skipped).method m = some d) : d.id = m := by
  have hkeyed : (declare (Registry.ofFiles files)).methods.Keyed (fun m d => d.id = m) :=
    .foldl_insertNew (fun _ _ => rfl) Table.keyed_empty
  rw [method, (declared_ofFiles files skipped).2.1] at h
  exact hkeyed.get? h

/-- Constructors are filed under their common name. -/
theorem name_of_isConstructor {files : List Syntax.SourceFile} {skipped : List String}
    {m : MethodId} (h : ((ofFiles files skipped).method m).any MethodDecl.isConstructor = true) :
    m.name = constructorName := by
  have hkeyed : (declare (Registry.ofFiles files)).methods.Keyed
      (fun m d => d.isConstructor = true → m.name = constructorName) := by
    refine .foldl_insertNew (fun d hd => ?_) Table.keyed_empty
    obtain ⟨type, htype, hd⟩ := List.mem_flatMap.1 hd
    obtain ⟨_, he, rfl⟩ := List.mem_map.1 htype
    obtain ⟨e, -, rfl⟩ := List.mem_map.1 he
    obtain ⟨_, hentry, rfl⟩ := List.mem_map.1 hd
    obtain ⟨e', he', rfl⟩ := List.mem_map.1 hentry
    obtain ⟨hid, -, hname⟩ := (Declare.methods_keyed _ _ _ _).entry e' he'
    rw [hid]
    exact hname
  rw [method, (declared_ofFiles files skipped).2.1] at h
  obtain ⟨d, hd, hconstructor⟩ := (Option.any_eq_true _ _).1 h
  exact hkeyed.get? hd hconstructor

end Index

/-! ### Lookups and listings -/

namespace TypeTable

/-- Some fields by name; of several with one name the first counts. -/
def listing (fields : List FieldDecl) : Table String FieldRef :=
  fields.foldl (fun seen f => seen.insertNew f.name f.ref) .empty

theorem keyed_listing (fields : List FieldDecl) :
    (listing fields).Keyed (fun name r => r.name = name) :=
  .foldl_insertNew (fun _ _ => rfl) Table.keyed_empty

/-- The fields of a type are listed in one walk over the declarations. -/
theorem fieldsOf_eq_listing (types : TypeTable) (type : String) (inherited : Bool) :
    types.fieldsOf type inherited = (listing
      ((if inherited then types.declarationsAlong type else (types.get? type).toList).flatMap
        (fun d => d.fields.values))).values := by
  simp only [listing, List.foldl_flatMap]
  rfl

/-- The names listed are those of the fields declared along the lineage. -/
theorem mem_names_fieldsOf {types : TypeTable} {type name : String} :
    name ∈ (types.fieldsOf type true).map FieldRef.name ↔
      ∃ d ∈ types.declarationsAlong type, ∃ f ∈ d.fields.values, name = f.name := by
  have hempty : name ∉ (Table.empty : Table String FieldRef).keys := List.not_mem_nil
  rw [fieldsOf_eq_listing, if_pos rfl, (keyed_listing _).map_values, listing,
    Table.mem_keys_foldl_insertNew, or_iff_right hempty]
  constructor
  · rintro ⟨f, hf, hname⟩
    obtain ⟨d, hd, hf⟩ := List.mem_flatMap.1 hf
    exact ⟨d, hd, f, hf, hname⟩
  · rintro ⟨d, hd, f, hf, hname⟩
    exact ⟨f, List.mem_flatMap.2 ⟨d, hd, hf⟩, hname⟩

end TypeTable

/-- A type's own field is the nearest. -/
theorem TypeTable.fieldOn_of_get? {types : TypeTable} {type name : String} {d : TypeDecl}
    {f : FieldDecl} (hd : types.get? type = some d) (hf : d.fields.get? name = some f) :
    types.fieldOn type name = some f := by
  rw [fieldOn, declarationsAlong, lineage, List.filterMap_cons_some hd,
    List.findSome?_cons_of_isSome (by rw [hf]; rfl), hf]

namespace TypeTable.WellNamed

variable {types : TypeTable}

/-- A field that is looked up is declared along the lineage, where it says. -/
theorem declared_of_fieldOn (h : types.WellNamed) {type name : String} {f : FieldDecl}
    (hf : types.fieldOn type name = some f) :
    ∃ d ∈ types.declarationsAlong type, types.get? f.declaringType = some d ∧
      d.fields.get? name = some f ∧ f.name = name := by
  obtain ⟨d, hd, hget⟩ := List.exists_of_findSome?_eq_some hf
  obtain ⟨owner, -, howner⟩ := List.mem_filterMap.1 hd
  have href : f.ref = ⟨owner, name⟩ := (h.get? howner).get? hget
  have htype : f.declaringType = owner := congrArg FieldRef.declaringType href
  exact ⟨d, hd, by rw [htype]; exact howner, hget, congrArg FieldRef.name href⟩

/-- A field that is looked up is among those listed. -/
theorem mem_fieldsOf (h : types.WellNamed) {type name : String} {f : FieldDecl}
    (hf : types.fieldOn type name = some f) :
    name ∈ (types.fieldsOf type true).map FieldRef.name := by
  obtain ⟨d, hd, -, hget, hname⟩ := h.declared_of_fieldOn hf
  exact mem_names_fieldsOf.2 ⟨d, hd, f, Table.mem_values_of_get? hget, hname.symm⟩

/-- Looking a field up where it is declared finds it again. -/
theorem fieldOn_ref (h : types.WellNamed) {type name : String} {f : FieldDecl}
    (hf : types.fieldOn type name = some f) : types.fieldOn f.declaringType f.name = some f := by
  obtain ⟨d, -, hd, hget, hname⟩ := h.declared_of_fieldOn hf
  rw [hname]
  exact fieldOn_of_get? hd hget

/-- A field that holds a type is declared where it says. -/
theorem declared_of_mem_containersOf (h : types.WellNamed) {type : String} {f : FieldDecl}
    (hf : f ∈ types.containersOf type) :
    ∃ d, types.get? f.declaringType = some d ∧ d.fields.get? f.name = some f := by
  obtain ⟨d, hd, hf⟩ := List.mem_flatMap.1 (List.mem_filter.1 hf).1
  obtain ⟨e, he, rfl⟩ := List.mem_map.1 hd
  obtain ⟨g, hg, rfl⟩ := List.mem_map.1 hf
  have href : g.2.ref = ⟨e.1, g.1⟩ := (h.entry e he).entry g hg
  have htype : g.2.declaringType = e.1 := congrArg FieldRef.declaringType href
  have hname : g.2.name = g.1 := congrArg FieldRef.name href
  exact ⟨e.2, by rw [htype]; exact h.get?_of_mem he,
    by rw [hname]; exact (h.entry e he).get?_of_mem hg⟩

end TypeTable.WellNamed

end FieldTrace
