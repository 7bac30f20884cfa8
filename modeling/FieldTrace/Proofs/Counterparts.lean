import FieldTrace.Proofs.Contexts

/-! # Either side may be the seed

If a mapping site pairs two types that both hold a field of one name then crossings lead from each of
the two to the other. So the same types can be reached from both, and the relations and sites of the
field are the same whichever side is taken as the seed. -/

namespace FieldTrace

/-! ### Names that resolve to themselves -/

/-- The name has no type arguments and no outer blanks. -/
structure IsPlainName (name : String) : Prop where
  no_arguments : '<' ∉ name.toList
  no_blanks : Text.trim name = name

theorem IsPlainName.stripGenerics {name : String} (h : IsPlainName name) :
    FieldTrace.stripGenerics name = name := by
  have hwhole : Text.beforeFirst '<' name = name := by
    rw [Text.beforeFirst, Text.splitFirst, Text.splitFirstChars_eq_none.2 h.no_arguments]
    rfl
  rw [FieldTrace.stripGenerics, hwhole, h.no_blanks]

/-- A type that holds a field is declared: what is not has no supertypes either. -/
theorem TypeTable.mem_keys_of_fieldOn {types : TypeTable} {type name : String} {f : FieldDecl}
    (h : types.fieldOn type name = some f) : type ∈ types.keys := by
  rw [← Table.contains_iff, Table.contains]
  cases hget : types.get? type with
  | some d => rfl
  | none =>
    have hsupers : types.supertypesOf type = [] := by
      unfold supertypesOf levelsFrom
      rw [levels]
      simp [directSupertypes, hget, distinct]
    rw [fieldOn, declarationsAlong, lineage, hsupers, List.filterMap_cons_none hget] at h
    cases h

namespace Index

variable {files : List Syntax.SourceFile} {skipped : List String}

/-- Declared types have been registered. -/
theorem isType_of_mem_keys {name : String} (h : name ∈ (ofFiles files skipped).types.keys) :
    (ofFiles files skipped).registry.isType name = true := by
  rw [Registry.isType, Table.contains_iff, ← keys_types_ofFiles]
  exact h

theorem resolveType_of_fieldOn {type name : String} {f : FieldDecl} (hplain : IsPlainName type)
    (h : (ofFiles files skipped).types.fieldOn type name = some f) :
    (ofFiles files skipped).resolveType type = some type := by
  have htype := isType_of_mem_keys (TypeTable.mem_keys_of_fieldOn h)
  rw [resolveType, Registry.resolve?, hplain.stripGenerics]
  exact if_pos htype

end Index

/-! ### Crossing back and forth -/

theorem Reaches.trans {crossings : String → List Crossing} {first second third : String}
    (h : Reaches crossings first second) (h' : Reaches crossings second third) :
    Reaches crossings first third := by
  induction h' with
  | refl => exact h
  | step _ hc ih => exact ih.step hc

/-- The site pairs the two types, in one direction or the other. -/
def MappingSite.Pairs (site : MappingSite) (first second : String) : Prop :=
  site.source = first ∧ site.target = second ∨ site.source = second ∧ site.target = first

theorem MappingSite.Pairs.symm {site : MappingSite} {first second : String}
    (h : site.Pairs first second) : site.Pairs second first := Or.symm h

theorem MappingSite.Pairs.otherSide {site : MappingSite} {first second : String}
    (h : site.Pairs first second) (hne : first ≠ second) :
    Crossings.otherSide first site = some second := by
  unfold Crossings.otherSide MappingSite.counterpart
  obtain ⟨rfl, rfl⟩ | ⟨rfl, rfl⟩ := h
  · rw [if_pos rfl, Option.filter_some, if_pos (by simpa using hne.symm)]
  · rw [if_neg hne, if_pos rfl, Option.filter_some, if_pos (by simpa using hne.symm)]

namespace Index

variable {idx : Index} {field first second : String} {f g : FieldDecl} {site : MappingSite}

/-- A site that pairs two holders of a field carries it across. -/
theorem mem_crossings_of_pairs (hsite : site ∈ idx.sites) (hpairs : site.Pairs first second)
    (hne : first ≠ second) (hf : idx.types.fieldOn first field = some f)
    (hg : idx.types.fieldOn second field = some g) :
    { site := site, relation := Crossings.relate .direct site field,
      continueAt := ⟨second, field⟩, nextType := second } ∈ idx.crossings first field none :=
  mem_crossings_iff.2 (.direct (mem_sitesIn_none.2 hsite) (hpairs.otherSide hne) hf hg)

theorem reaches_of_pairs (hsite : site ∈ idx.sites) (hpairs : site.Pairs first second)
    (hne : first ≠ second) (hf : idx.types.fieldOn first field = some f)
    (hg : idx.types.fieldOn second field = some g) : idx.Reaches field first second := by
  have hcrossing := mem_crossings_of_pairs hsite hpairs hne hf hg
  exact @FieldTrace.Reaches.step (fun t => idx.crossings t field none) first first _ .refl hcrossing

end Index

/-- From two types that reach each other the same relations and sites are found. -/
theorem Resolution.Closes.perm {crossings : String → List Crossing} {first second : String}
    {types types' : List String} {res res' : Resolution} (h : Closes crossings first types res)
    (h' : Closes crossings second types' res') (hthere : FieldTrace.Reaches crossings first second)
    (hback : FieldTrace.Reaches crossings second first) :
    res.relations.Perm res'.relations ∧ res.sites.Perm res'.sites := by
  have hsame : ∀ t, FieldTrace.Reaches crossings first t ↔ FieldTrace.Reaches crossings second t :=
    fun t => ⟨hback.trans, hthere.trans⟩
  constructor
  · rw [List.perm_ext_iff_of_nodup h.nodup_relations h'.nodup_relations]
    intro x
    rw [h.mem_relations, h'.mem_relations]
    exact exists_congr (fun t => and_congr_left (fun _ => hsame t))
  · rw [List.perm_ext_iff_of_nodup h.nodup_sites h'.nodup_sites]
    intro s
    rw [h.mem_sites, h'.mem_sites]
    exact exists_congr (fun t => and_congr_left (fun _ => hsame t))

/-! ### Resolving from a sound run -/

/-- What a sound run remembers lies within the index. -/
theorem Run.Sound.within {a : IndexAccess} (ha : a.Steady) {r : Run} (h : r.Sound a) :
    r.Within a.index := by
  intro k v hv
  -- on a fresh run the same answer is found by searching
  obtain ⟨r', hrun, -⟩ := (ha.determines_searchFor r.settings k).cached
    (Run.settled_fresh a r.settings)
  rw [h k v hv] at hrun
  have hfresh : Run.Within a.index { settings := r.settings } := Run.within_of_empty rfl
  cases k with
  | projectSites => exact (Detection.finds_inProject _ _ _ hfresh hrun).2 v rfl
  | methodSites m => exact (Detection.finds_inMethod m _ _ _ hfresh hrun).2 v rfl
  | typeSites type => exact (Detection.finds_ofType type _ _ _ hfresh hrun).2 v rfl
  | crossings type field within =>
    exact (Crossings.finds_of type field within _ _ _ hfresh hrun).2 v rfl
  | callers | implementations | references | memberCalls => trivial

/-- Without faults and cancellation a resolution closes over the crossings of the index. -/
theorem resolveRelations_exists_closes {a : IndexAccess} (seed : FieldRef) {start : String}
    {f : FieldDecl} {r : Run} (hr : r.Sound a.faultless) (hquiet : r.token.Quiet)
    (hstart : a.index.resolveType seed.declaringType = some start)
    (hf : a.index.types.fieldOn start seed.name = some f) :
    ∃ res r' types, (resolveRelations a.faultless seed).runOn r = (.ok res, r') ∧
      Resolution.Closes (fun t => a.index.crossings t seed.name none) start types res := by
  obtain ⟨res, r', hrun⟩ := resolveRelations_exists_ok (a := a.faultless) (fun _ _ => rfl) hquiet seed
  have hwithin : r.Within a.faultless.index := hr.within a.faultless_steady
  obtain ⟨visits, -, hcloses⟩ :=
    (Resolution.yields_resolveRelations hwithin seed res r' hrun).closes hr hstart hf
  exact ⟨res, r', _, hrun, hcloses⟩

/-! ### The choice of the seed -/

/-- In every project, if some mapping site pairs two different types that both hold a field of one
name, declared or inherited, then resolving the field from either type finds the same relations and
the same sites, and the site is among them. This holds from any two runs that remember outcomes, and
whatever other crossings can be reached. -/
theorem resolveRelations_either_side (files : List Syntax.SourceFile) (skipped : List String)
    {field first second : String} {f g : FieldDecl} {site : MappingSite}
    (hfirst : IsPlainName first) (hsecond : IsPlainName second) (hne : first ≠ second)
    (hf : (Index.ofFiles files skipped).types.fieldOn first field = some f)
    (hg : (Index.ofFiles files skipped).types.fieldOn second field = some g)
    (hsite : site ∈ (Index.ofFiles files skipped).sites) (hpairs : site.Pairs first second)
    (r r' : Run) (hr : r.Sound { index := Index.ofFiles files skipped })
    (hr' : r'.Sound { index := Index.ofFiles files skipped }) (hquiet : r.token.Quiet)
    (hquiet' : r'.token.Quiet) :
    ∃ res q res' q',
      (resolveRelations { index := Index.ofFiles files skipped } ⟨first, field⟩).runOn r =
        (.ok res, q) ∧
      (resolveRelations { index := Index.ofFiles files skipped } ⟨second, field⟩).runOn r' =
        (.ok res', q') ∧
      res.relations.Perm res'.relations ∧ res.sites.Perm res'.sites ∧
      Crossings.relate .direct site field ∈ res.relations ∧ site ∈ res.sites := by
  have hthere := Index.reaches_of_pairs hsite hpairs hne hf hg
  have hback := Index.reaches_of_pairs hsite hpairs.symm hne.symm hg hf
  obtain ⟨res, q, types, hrun, hcloses⟩ := resolveRelations_exists_closes
    (a := { index := Index.ofFiles files skipped }) ⟨first, field⟩ hr hquiet
    (Index.resolveType_of_fieldOn hfirst hf) hf
  obtain ⟨res', q', types', hrun', hcloses'⟩ := resolveRelations_exists_closes
    (a := { index := Index.ofFiles files skipped }) ⟨second, field⟩ hr' hquiet'
    (Index.resolveType_of_fieldOn hsecond hg) hg
  obtain ⟨hrelations, hsites⟩ := hcloses.perm hcloses' hthere hback
  have hcrossing := Index.mem_crossings_of_pairs hsite hpairs hne hf hg
  exact ⟨res, q, res', q', hrun, hrun', hrelations, hsites,
    (hcloses.mem_relations _).2 ⟨first, .refl, _, hcrossing, rfl⟩,
    (hcloses.mem_sites _).2 ⟨first, .refl, _, hcrossing, rfl⟩⟩

/-! ### A project with two mappings -/

namespace Packing

open Syntax

/-- A class with a method that maps one type to another, with its parse tree. -/
def mapper (name method source target : String) : SourceFile :=
  let nameEnd := 6 + name.length
  let start := nameEnd + 24
  let methodEnd := start + 5 + method.length
  let sourceEnd := methodEnd + 1 + source.length
  let targetEnd := sourceEnd + 7 + target.length
  { path := name ++ ".java"
    bytes := (["class ", name, " \x7b MapperFacade facade; void ", method, "(", source, " from, ",
      target, " to) \x7b facade.map(from, to); \x7d \x7d\n"].flatMap
        (fun l => l.toUTF8.data.toList)).toArray
    tree := .node (.other "program") .none 0 (targetEnd + 33) [
      .node .classDeclaration .none 0 (targetEnd + 32) [
        .node .identifier .name 6 nameEnd [],
        .node (.other "class_body") .body (nameEnd + 1) (targetEnd + 32) [
          .node .fieldDeclaration .none (nameEnd + 3) (nameEnd + 23) [
            .node .typeIdentifier .type (nameEnd + 3) (nameEnd + 15) [],
            .node .variableDeclarator .declarator (nameEnd + 16) (nameEnd + 22) [
              .node .identifier .name (nameEnd + 16) (nameEnd + 22) []]],
          .node .methodDeclaration .none start (targetEnd + 30) [
            .node (.other "void_type") .type start (start + 4) [],
            .node .identifier .name (start + 5) methodEnd [],
            .node (.other "formal_parameters") .parameters methodEnd (targetEnd + 4) [
              .node .formalParameter .none (methodEnd + 1) (sourceEnd + 5) [
                .node .typeIdentifier .type (methodEnd + 1) sourceEnd [],
                .node .identifier .name (sourceEnd + 1) (sourceEnd + 5) []],
              .node .formalParameter .none (sourceEnd + 7) (targetEnd + 3) [
                .node .typeIdentifier .type (sourceEnd + 7) targetEnd [],
                .node .identifier .name (targetEnd + 1) (targetEnd + 3) []]],
            .node (.other "block") .body (targetEnd + 5) (targetEnd + 30) [
              .node (.other "expression_statement") .none (targetEnd + 7) (targetEnd + 28) [
                .node .methodInvocation .none (targetEnd + 7) (targetEnd + 27) [
                  .node .identifier .object (targetEnd + 7) (targetEnd + 13) [],
                  .node .identifier .name (targetEnd + 14) (targetEnd + 17) [],
                  .node (.other "argument_list") .arguments (targetEnd + 17) (targetEnd + 27) [
                    .node .identifier .none (targetEnd + 18) (targetEnd + 22) [],
                    .node .identifier .none (targetEnd + 24) (targetEnd + 26) []]]]]]]]] }

/-- Orders hold items; both are mapped to transfer objects. -/
def files : List SourceFile := [
  Nesting.classWith "Item" "String" "id", Nesting.classWith "ItemDto" "String" "id",
  Nesting.classWith "Order" "Item" "item", Nesting.classWith "OrderDto" "ItemDto" "item",
  mapper "Sender" "send" "Order" "OrderDto", mapper "Packer" "pack" "Item" "ItemDto"]

def index : Index := Index.ofFiles files []

end Packing

set_option maxRecDepth 100000 in
/-- From items and from their transfer objects the mapping of items is found, and that of orders,
which hold items. -/
theorem resolveRelations_either_side_packing :
    ∃ res q res' q',
      (resolveRelations { index := Packing.index } ⟨"Item", "id"⟩).runOn {} = (.ok res, q) ∧
      (resolveRelations { index := Packing.index } ⟨"ItemDto", "id"⟩).runOn {} = (.ok res', q') ∧
      res.relations.Perm res'.relations ∧ res.sites.Perm res'.sites ∧
      res.relations.map MappingRelation.kind = [.direct, .nested] := by
  have hfacts : (Packing.index.types.fieldOn "Item" "id").isSome = true ∧
      (Packing.index.types.fieldOn "ItemDto" "id").isSome = true ∧
      Packing.index.sites.any (fun s => s.source = "Item" && s.target = "ItemDto") = true := by
    decide +kernel
  have hkinds : ((resolveRelations { index := Packing.index } ⟨"Item", "id"⟩).runOn
      {}).1.toOption.map (fun res => res.relations.map MappingRelation.kind) =
        some [.direct, .nested] := by
    decide +kernel
  obtain ⟨hf, hg, hsite⟩ := hfacts
  obtain ⟨f, hf⟩ := Option.isSome_iff_exists.1 hf
  obtain ⟨g, hg⟩ := Option.isSome_iff_exists.1 hg
  obtain ⟨site, hsite, hsides⟩ := List.any_eq_true.1 hsite
  have hpairs : site.Pairs "Item" "ItemDto" := .inl (by simpa using hsides)
  obtain ⟨res, q, res', q', hrun, hrun', hrelations, hsites, -⟩ :=
    resolveRelations_either_side Packing.files [] ⟨by decide, by decide⟩ ⟨by decide, by decide⟩
      (by decide) hf hg hsite hpairs {} {} (Run.sound_of_empty rfl)
      (Run.sound_of_empty rfl) Token.quiet_default Token.quiet_default
  have hkinds : res.relations.map MappingRelation.kind = [.direct, .nested] := by
    rw [show (resolveRelations { index := Packing.index } ⟨"Item", "id"⟩).runOn {} = (.ok res, q)
      from hrun] at hkinds
    exact Option.some.inj hkinds
  exact ⟨res, q, res', q', hrun, hrun', hrelations, hsites, hkinds⟩

end FieldTrace
