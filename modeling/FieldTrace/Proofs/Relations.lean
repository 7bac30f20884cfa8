import FieldTrace.Proofs.Closure
import FieldTrace.Proofs.Crossings
import FieldTrace.Proofs.Declarations
import FieldTrace.Tracer

/-! # What a relation says

A relation that is found pairs two fields of one name that both sides hold, at a mapping call
between two different types. A direct relation is about the traced name; a nested one is about a
field that holds a type to which crossings lead (`MappingRelation.Justified`). The relations and the
sites of a seed come from the same crossings, so that they tell of the same pairs of types. -/

namespace FieldTrace

/-- The types that the crossings of a field lead to from a type. -/
abbrev Index.Reaches (idx : Index) (field start type : String) : Prop :=
  FieldTrace.Reaches (fun t => idx.crossings t field none) start type

/-- What a relation says about the index in which it was found, for the field of a name that was
traced from a type. -/
structure MappingRelation.Justified (idx : Index) (start field : String) (x : MappingRelation) :
    Prop where
  same_name : x.source.name = x.target.name
  source_holds : x.source.name ∈ (idx.types.fieldsOf x.source.declaringType true).map FieldRef.name
  target_holds : x.target.name ∈ (idx.types.fieldsOf x.target.declaringType true).map FieldRef.name
  types_ne : x.source.declaringType ≠ x.target.declaringType
  detected : ∃ site ∈ idx.sites,
    site.source = x.source.declaringType ∧ site.target = x.target.declaringType
  direct : x.kind = .direct → x.source.name = field
  nested : x.kind = .nested → ∃ type d holder, idx.Reaches field start type ∧
    (holder.declaringType = x.source.declaringType ∨
      holder.declaringType = x.target.declaringType) ∧
    idx.types.get? holder.declaringType = some d ∧ d.fields.get? x.source.name = some holder ∧
    (holder.typeName = type ∨ holder.elementType = some type)

/-! ### Crossings justify their relations -/

namespace Index.Carries

variable {idx : Index} {type field : String} {sites : List MappingSite} {c : Crossing}

theorem site_mem (h : idx.Carries type field sites c) : c.site ∈ sites := by
  cases h with
  | direct hsite => exact hsite
  | nested hsite => exact hsite

/-- A crossing relates the types of its site. -/
theorem relation_types (h : idx.Carries type field sites c) :
    c.relation.source.declaringType = c.site.source ∧
      c.relation.target.declaringType = c.site.target := by
  cases h with
  | direct => exact ⟨rfl, rfl⟩
  | nested => exact ⟨rfl, rfl⟩

/-- The site of a crossing has the type or a holder of it on one side. -/
theorem involves (h : idx.Carries type field sites c) :
    c.site.involves type = true ∨
      ∃ holder ∈ idx.types.containersOf type, c.site.involves holder.declaringType = true := by
  cases h with
  | direct _ hother => exact .inl (Crossings.involves_of_otherSide hother)
  | nested _ hholder hother => exact .inr ⟨_, hholder, Crossings.involves_of_otherSide hother⟩

/-- What both the type on this side and the one on the other side have, the two sides have. -/
theorem sides {P : String → Prop} {here other : String} {site : MappingSite}
    (hother : Crossings.otherSide here site = some other) (hhere : P here) (hthere : P other) :
    P site.source ∧ P site.target ∧ site.source ≠ site.target := by
  obtain ⟨⟨rfl, rfl⟩ | ⟨rfl, rfl⟩, hne⟩ := Crossings.otherSide_eq_some hother
  · exact ⟨hhere, hthere, hne⟩
  · exact ⟨hthere, hhere, hne.symm⟩

theorem justified (hnamed : idx.types.WellNamed) {start : String}
    (hreach : idx.Reaches field start type) (h : idx.Carries type field idx.sites c) :
    c.relation.Justified idx start field := by
  cases h with
  | @direct site other here there hsite hother hhere hthere =>
    obtain ⟨hsource, htarget, hne⟩ := sides
      (P := fun t => field ∈ (idx.types.fieldsOf t true).map FieldRef.name) hother
      (hnamed.mem_fieldsOf hhere) (hnamed.mem_fieldsOf hthere)
    exact {
      same_name := rfl
      source_holds := hsource
      target_holds := htarget
      types_ne := hne
      detected := ⟨site, hsite, rfl, rfl⟩
      direct := fun _ => rfl
      nested := by rintro ⟨⟩ }
  | @nested site other holder there hsite hholder hother hthere _ =>
    obtain ⟨d, hd, hfield⟩ := hnamed.declared_of_mem_containersOf hholder
    obtain ⟨hsource, htarget, hne⟩ := sides
      (P := fun t => holder.name ∈ (idx.types.fieldsOf t true).map FieldRef.name) hother
      (hnamed.mem_fieldsOf (TypeTable.fieldOn_of_get? hd hfield)) (hnamed.mem_fieldsOf hthere)
    have hside : holder.declaringType = site.source ∨ holder.declaringType = site.target :=
      (Crossings.otherSide_eq_some hother).1.imp And.left And.left
    have hholds : holder.typeName = type ∨ holder.elementType = some type := by
      simpa using (List.mem_filter.1 hholder).2
    exact {
      same_name := rfl
      source_holds := hsource
      target_holds := htarget
      types_ne := hne
      detected := ⟨site, hsite, rfl, rfl⟩
      direct := by rintro ⟨⟩
      nested := fun _ => ⟨type, d, holder, hreach, hside, hd, hfield, hholds⟩ }

end Index.Carries

/-! ### What visits find -/

namespace Resolution

variable {a : IndexAccess} {field : String} {start r : Run} {visits : List Visit}

/-- Whatever the index fails at, visits find crossings of the index only. -/
theorem Visits.crossings_subset (h : Visits a field start visits r)
    (hstart : start.Sound a.faultless) (type : String) :
    Visit.crossings visits type ⊆ a.index.crossings type field none := by
  intro c hc
  obtain ⟨v, hv, rfl, hmem⟩ := Visit.mem_crossings.1 hc
  rw [Visit.found] at hmem
  cases hanswer : v.answer with
  | error e =>
    rw [hanswer] at hmem
    cases hmem
  | ok found =>
    rw [hanswer] at hmem
    have hfound := h.eq_faultless hstart v hv found hanswer
    rw [(Crossings.of_answers v.type field none).outcome_eq] at hfound
    rw [Except.ok.inj hfound]
    exact hmem

/-- How a resolution ends: the seed is not declared, or all types that can be reached from its own
have been visited. -/
inductive Ends (a : IndexAccess) (seed : FieldRef) (r r' : Run) : Resolution → Prop where
  | undeclared (h : ∀ type, a.index.resolveType seed.declaringType = some type →
      a.index.types.fieldOn type seed.name = none) : Ends a seed r r' {}
  | visited {type : String} {f : FieldDecl} {visits : List Visit} {res : Resolution}
    (htype : a.index.resolveType seed.declaringType = some type)
    (hfield : a.index.types.fieldOn type seed.name = some f)
    (hvisits : Visits a seed.name { r with indexCalls := r.indexCalls + 1 + 1 } visits r')
    (hcloses : Closes (Visit.crossings visits) type (visits.map Visit.type) res) :
    Ends a seed r r' res

theorem yields_resolveRelations (hr : r.Within a.index) (seed : FieldRef) :
    Analysis.Yields r (resolveRelations a seed) (fun res r' => Ends a seed r r' res) := by
  refine .bind (.ask a _ _) ?_
  rintro resolved _ ⟨hresolved, rfl⟩
  cases resolved with
  | none => exact .pure (.undeclared (by rw [← hresolved]; nofun))
  | some type =>
    refine .bind (.ask a _ _) ?_
    rintro found _ ⟨hfound, rfl⟩
    cases found with
    | none =>
      refine .pure (.undeclared (fun type' htype' => ?_))
      rw [← hresolved] at htype'
      cases htype'
      exact hfound.symm
    | some f =>
      have hroom := a.index.length_nextTypes
      refine (yields_expand (by exact hr) type a.index.typeBound [] [type] {} _ (.init (by simp))
        .start (by rw [List.length_nil]; omega)).mono ?_
      rintro res r' ⟨visits, hvisits, hcloses⟩
      exact .visited hresolved.symm hfound.symm hvisits hcloses

/-- The relations and sites are those of some crossings of types that can be reached. -/
structure DrawnFrom (idx : Index) (seed : FieldRef) (found : List Crossing) (res : Resolution) :
    Prop where
  reached : ∀ c ∈ found, ∃ start type, idx.resolveType seed.declaringType = some start ∧
    idx.Reaches seed.name start type ∧ idx.Carries type seed.name idx.sites c
  mem_relations : ∀ x, x ∈ res.relations ↔ ∃ c ∈ found, c.relation = x
  mem_sites : ∀ s, s ∈ res.sites ↔ ∃ c ∈ found, c.site = s

theorem Ends.drawnFrom {seed : FieldRef} {r r' : Run} {res : Resolution}
    (h : Ends a seed r r' res) (hr : r.Sound a.faultless) :
    ∃ found, res.DrawnFrom a.index seed found := by
  cases h with
  | undeclared => exact ⟨[], by simp, by simp, by simp⟩
  | @visited start f visits _ htype hfield hvisits hcloses =>
    have hsub := hvisits.crossings_subset (by exact hr)
    have hmem : ∀ p : Crossing → Prop,
        (∃ t, Reaches (Visit.crossings visits) start t ∧ ∃ c ∈ Visit.crossings visits t, p c) ↔
          ∃ c ∈ visits.flatMap Visit.found, p c := by
      intro p
      constructor
      · rintro ⟨t, -, c, hc, hp⟩
        obtain ⟨v, hv, -, hc⟩ := Visit.mem_crossings.1 hc
        exact ⟨c, List.mem_flatMap.2 ⟨v, hv, hc⟩, hp⟩
      · rintro ⟨c, hc, hp⟩
        obtain ⟨v, hv, hc⟩ := List.mem_flatMap.1 hc
        have hreached := (hcloses.mem_types v.type).1 (List.mem_map_of_mem hv)
        exact ⟨v.type, hreached, c, Visit.mem_crossings_of_mem hv hc, hp⟩
    refine ⟨visits.flatMap Visit.found, fun c hc => ?_,
      fun x => (hcloses.mem_relations x).trans (hmem _),
      fun s => (hcloses.mem_sites s).trans (hmem _)⟩
    obtain ⟨v, hv, hc⟩ := List.mem_flatMap.1 hc
    have hreached := (hcloses.mem_types v.type).1 (List.mem_map_of_mem hv)
    have hcarries := Index.mem_crossings_iff.1 (hsub v.type (Visit.mem_crossings_of_mem hv hc))
    exact ⟨start, v.type, htype, hreached.mono (fun t c _ hc => hsub t hc),
      hcarries.mono (fun s hs => Index.mem_sitesIn_none.1 hs)⟩

namespace DrawnFrom

variable {idx : Index} {seed : FieldRef} {found : List Crossing} {res : Resolution}

/-- The relations and the sites tell of the same pairs of types. -/
theorem pairs_iff (h : res.DrawnFrom idx seed found) (source target : String) :
    (∃ x ∈ res.relations, x.source.declaringType = source ∧ x.target.declaringType = target) ↔
      ∃ site ∈ res.sites, site.source = source ∧ site.target = target := by
  constructor
  · rintro ⟨x, hx, rfl, rfl⟩
    obtain ⟨c, hc, rfl⟩ := (h.mem_relations x).1 hx
    obtain ⟨_, _, -, -, hcarries⟩ := h.reached c hc
    obtain ⟨hsource, htarget⟩ := hcarries.relation_types
    exact ⟨c.site, (h.mem_sites _).2 ⟨c, hc, rfl⟩, hsource.symm, htarget.symm⟩
  · rintro ⟨site, hsite, rfl, rfl⟩
    obtain ⟨c, hc, rfl⟩ := (h.mem_sites site).1 hsite
    obtain ⟨_, _, -, -, hcarries⟩ := h.reached c hc
    exact ⟨c.relation, (h.mem_relations _).2 ⟨c, hc, rfl⟩, hcarries.relation_types⟩

/-- Without a mapping call that touches a type that can be reached, or a holder of one, there are no
relations. -/
theorem relations_eq_nil (h : res.DrawnFrom idx seed found)
    (huntouched : ∀ start type, idx.resolveType seed.declaringType = some start →
      idx.Reaches seed.name start type → ∀ site ∈ idx.sites, site.involves type = false ∧
        ∀ holder ∈ idx.types.containersOf type, site.involves holder.declaringType = false) :
    res.relations = [] := by
  refine List.eq_nil_iff_forall_not_mem.2 (fun x hx => ?_)
  obtain ⟨c, hc, rfl⟩ := (h.mem_relations x).1 hx
  obtain ⟨start, type, hstart, hreach, hcarries⟩ := h.reached c hc
  obtain ⟨htype, hholders⟩ := huntouched start type hstart hreach c.site hcarries.site_mem
  obtain hinvolves | ⟨holder, hholder, hinvolves⟩ := hcarries.involves
  · rw [htype] at hinvolves
    cases hinvolves
  · rw [hholders holder hholder] at hinvolves
    cases hinvolves

end DrawnFrom

end Resolution

/-! ### Answers without faults -/

theorem IndexAccess.eq_faultless {a : IndexAccess} (h : ∀ n call, a.fails n call = none) :
    a = a.faultless := by
  obtain ⟨idx, fails⟩ := a
  have hfails : fails = fun _ _ => none := by
    funext n call
    exact h n call
  rw [hfails]
  rfl

theorem resolveRelations_onlyCancels (a : IndexAccess) (seed : FieldRef) :
    (resolveRelations a.faultless seed).OnlyCancels := by
  refine .bind (.ask a _ _) (fun resolved => ?_)
  cases resolved with
  | none => exact .pure _
  | some type =>
    refine .bind (.ask a _ _) (fun found => ?_)
    cases found with
    | none => exact .pure _
    | some f => exact Resolution.expand_onlyCancels _ _ _ _

theorem resolveRelations_exists_ok {a : IndexAccess} (ha : ∀ n call, a.fails n call = none)
    {r : Run} (hr : r.token.Quiet) (seed : FieldRef) :
    ∃ res r', (resolveRelations a seed).runOn r = (.ok res, r') := by
  rw [IndexAccess.eq_faultless ha]
  exact (resolveRelations_onlyCancels a seed).exists_ok
    (resolveRelations_uncancelled a.faultless_calm hr seed)

/-! ### Relations and sites of a project -/

/-- In every project, for every seed and settings, the relations can be found if the index answers
and nobody cancels. Whatever the index fails at, each relation that is found is justified, and the
sites listed for the seed are found with them and pair the same types. If no mapping call has a type
on one side that can be reached, or one that holds such a type, there are no relations. -/
theorem mappingRelations_justified (files : List Syntax.SourceFile) (skipped : List String)
    (plan : FaultPlan) (s : Settings) (token : Token) (seed : FieldRef) :
    ((∀ n call, plan n call = none) → token.Quiet → ∃ relations r,
      Tracer.mappingRelations { index := Index.ofFiles files skipped, fails := plan } s token seed =
        (.ok relations, r)) ∧
    ∀ relations r,
      Tracer.mappingRelations { index := Index.ofFiles files skipped, fails := plan } s token seed =
        (.ok relations, r) →
      (∀ x ∈ relations, ∃ start,
        (Index.ofFiles files skipped).resolveType seed.declaringType = some start ∧
          x.Justified (Index.ofFiles files skipped) start seed.name) ∧
      (∃ sites,
        Tracer.mappingSites { index := Index.ofFiles files skipped, fails := plan } s token seed =
          (.ok sites, r) ∧
        ∀ source target,
          (∃ x ∈ relations, x.source.declaringType = source ∧ x.target.declaringType = target) ↔
            ∃ site ∈ sites, site.source = source ∧ site.target = target) ∧
      ((∀ start type, (Index.ofFiles files skipped).resolveType seed.declaringType = some start →
          (Index.ofFiles files skipped).Reaches seed.name start type →
          ∀ site ∈ (Index.ofFiles files skipped).sites, site.involves type = false ∧
            ∀ holder ∈ (Index.ofFiles files skipped).types.containersOf type,
              site.involves holder.declaringType = false) →
        relations = []) := by
  generalize hidx : Index.ofFiles files skipped = idx
  have hnamed : idx.types.WellNamed := hidx ▸ Index.wellNamed_ofFiles files skipped
  constructor
  · intro hplan hquiet
    obtain ⟨res, r, hrun⟩ := resolveRelations_exists_ok (a := { index := idx, fails := plan }) hplan
      (r := { settings := s, token := token }) hquiet seed
    exact ⟨_, r, Analysis.runOn_bind_ok _ hrun _⟩
  · intro relations r hrelations
    obtain ⟨res, r₁, hrun, hpure⟩ := (Analysis.runOn_bind_eq_ok _).1 hrelations
    cases hpure
    have hends := Resolution.yields_resolveRelations (Run.within_of_empty rfl) seed res r hrun
    obtain ⟨found, hdrawn⟩ := hends.drawnFrom (Run.sound_of_empty rfl)
    refine ⟨fun x hx => ?_, ⟨_, Analysis.runOn_bind_ok _ hrun _, fun source target => ?_⟩,
      fun huntouched => ?_⟩
    · obtain ⟨c, hc, rfl⟩ := (hdrawn.mem_relations x).1 (mem_stableSort.1 hx)
      obtain ⟨start, type, hstart, hreach, hcarries⟩ := hdrawn.reached c hc
      exact ⟨start, hstart, hcarries.justified hnamed hreach⟩
    · simp only [Tracer.sortedRelations, mem_stableSort]
      exact hdrawn.pairs_iff source target
    · rw [Tracer.sortedRelations, hdrawn.relations_eq_nil huntouched]
      rfl

/-! ### A project with nested types -/

namespace Nesting

open Syntax

/-- A class with one field, with its parse tree. -/
def classWith (name type field : String) : SourceFile :=
  let nameEnd := 6 + name.length
  let typeStart := nameEnd + 3
  let fieldStart := typeStart + type.length + 1
  let fieldEnd := fieldStart + field.length
  { path := name ++ ".java"
    bytes := (["class ", name, " \x7b ", type, " ", field, "; \x7d\n"].flatMap
      (fun l => l.toUTF8.data.toList)).toArray
    tree := .node (.other "program") .none 0 (fieldEnd + 4) [
      .node .classDeclaration .none 0 (fieldEnd + 3) [
        .node .identifier .name 6 nameEnd [],
        .node (.other "class_body") .body (nameEnd + 1) (fieldEnd + 3) [
          .node .fieldDeclaration .none typeStart (fieldEnd + 1) [
            .node .typeIdentifier .type typeStart (typeStart + type.length) [],
            .node .variableDeclarator .declarator fieldStart fieldEnd [
              .node .identifier .name fieldStart fieldEnd []]]]]] }

/-- A class with a method that maps orders. -/
def senderLines : List String := [
  "class Sender \x7b MapperFacade facade; ",
  "void send(Order from, OrderDto to) \x7b facade.map(from, to); \x7d \x7d\n"]

/-- The lines with their parse tree. -/
def sender : SourceFile where
  path := "Sender.java"
  bytes := (senderLines.flatMap (fun l => l.toUTF8.data.toList)).toArray
  tree := .node (.other "program") .none 0 99 [
    .node .classDeclaration .none 0 98 [
      .node .identifier .name 6 12 [],
      .node (.other "class_body") .body 13 98 [
        .node .fieldDeclaration .none 15 35 [
          .node .typeIdentifier .type 15 27 [],
          .node .variableDeclarator .declarator 28 34 [.node .identifier .name 28 34 []]],
        .node .methodDeclaration .none 36 96 [
          .node (.other "void_type") .type 36 40 [],
          .node .identifier .name 41 45 [],
          .node (.other "formal_parameters") .parameters 45 70 [
            .node .formalParameter .none 46 56 [
              .node .typeIdentifier .type 46 51 [],
              .node .identifier .name 52 56 []],
            .node .formalParameter .none 58 69 [
              .node .typeIdentifier .type 58 66 [],
              .node .identifier .name 67 69 []]],
          .node (.other "block") .body 71 96 [
            .node (.other "expression_statement") .none 73 94 [
              .node .methodInvocation .none 73 93 [
                .node .identifier .object 73 79 [],
                .node .identifier .name 80 83 [],
                .node (.other "argument_list") .arguments 83 93 [
                  .node .identifier .none 84 88 [],
                  .node .identifier .none 90 92 []]]]]]]]]

/-- Orders hold items, and are mapped to transfer objects that hold transfer objects of items. -/
def files : List SourceFile := [
  classWith "Item" "String" "id", classWith "ItemDto" "String" "id",
  classWith "Order" "Item" "item", classWith "OrderDto" "ItemDto" "item", sender]

def seed : FieldRef := ⟨"Item", "id"⟩

/-- The fields that hold the items are paired. -/
def itemRelation : MappingRelation := ⟨.nested, ⟨"Order", "item"⟩, ⟨"OrderDto", "item"⟩⟩

end Nesting

set_option maxRecDepth 100000 in
/-- The mapping of orders carries the identity of items across. -/
theorem mappingRelations_justified_nesting :
    ∃ relations sites r,
      Tracer.mappingRelations { index := Index.ofFiles Nesting.files [] } {} {} Nesting.seed =
        (.ok relations, r) ∧
      Tracer.mappingSites { index := Index.ofFiles Nesting.files [] } {} {} Nesting.seed =
        (.ok sites, r) ∧
      relations = [Nesting.itemRelation] ∧
      Nesting.itemRelation.Justified (Index.ofFiles Nesting.files []) "Item" "id" ∧
      ∃ site ∈ sites, site.source = "Order" ∧ site.target = "OrderDto" := by
  obtain ⟨hexists, hall⟩ := mappingRelations_justified Nesting.files [] (fun _ _ => none) {} {}
    Nesting.seed
  obtain ⟨relations, r, hrun⟩ := hexists (fun _ _ => rfl) Token.quiet_default
  obtain ⟨hjustified, ⟨sites, hsites, hpairs⟩, -⟩ := hall relations r hrun
  have hfound : (Tracer.mappingRelations { index := Index.ofFiles Nesting.files [] } {} {}
      Nesting.seed).1.toOption = some [Nesting.itemRelation] := by
    decide +kernel
  have hresolved : (Index.ofFiles Nesting.files []).resolveType "Item" = some "Item" := by
    decide +kernel
  rw [hrun] at hfound
  obtain rfl : relations = [Nesting.itemRelation] := Option.some.inj hfound
  obtain ⟨start, hstart, hx⟩ := hjustified Nesting.itemRelation List.mem_cons_self
  cases hresolved.symm.trans hstart
  exact ⟨_, sites, r, hrun, hsites, rfl, hx,
    (hpairs "Order" "OrderDto").1 ⟨Nesting.itemRelation, List.mem_cons_self, rfl, rfl⟩⟩

end FieldTrace
