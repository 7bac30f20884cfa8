import FieldTrace.Proofs.Counterparts

/-! # Nested crossings and the way back

A nested crossing starts at a type that a container holds in a field. It leaves from containers that
declare the field, for its type or for that of its elements; it arrives at a container that may
inherit the field, and there the type of the elements goes first. So the same mapping site leads
back to the type exactly if both containers declare the field and it leads to the type on the near
side (`TypeTable.Leads`), or if the crossing did not leave the type in the first place. -/

namespace FieldTrace

/-! ### Fields that lead to a type -/

/-- The type declares the field itself, and the field leads to the value type. -/
def TypeTable.Leads (types : TypeTable) (container field value : String) : Prop :=
  ∃ f, types.fieldOn container field = some f ∧ f.declaringType = container ∧
    Crossings.valueType f = value

instance (types : TypeTable) (container field value : String) :
    Decidable (types.Leads container field value) :=
  decidable_of_iff ((types.fieldOn container field).any (fun f =>
    f.declaringType = container && Crossings.valueType f = value) = true) (by
      simp [TypeTable.Leads, Option.any_eq_true])

/-- A field leads to its type or to that of its elements. -/
theorem Crossings.valueType_cases (f : FieldDecl) :
    f.typeName = valueType f ∨ f.elementType = some (valueType f) := by
  unfold valueType
  cases hfilter : f.elementType.filter (fun e => e ≠ "") with
  | none => exact .inl rfl
  | some e => exact .inr (Option.filter_eq_some_iff.1 hfilter).1

namespace TypeTable.WellNamed

variable {types : TypeTable} {container name value : String} {f : FieldDecl}

/-- A holder is the nearest field of its name on the type that declares it. -/
theorem fieldOn_of_mem_containersOf (h : types.WellNamed) (hf : f ∈ types.containersOf value) :
    types.fieldOn f.declaringType f.name = some f := by
  obtain ⟨d, hd, hfield⟩ := h.declared_of_mem_containersOf hf
  exact fieldOn_of_get? hd hfield

/-- A field that is looked up holds the type that it leads to. -/
theorem mem_containersOf_of_fieldOn (h : types.WellNamed)
    (hf : types.fieldOn container name = some f) :
    f ∈ types.containersOf (Crossings.valueType f) := by
  obtain ⟨d, -, hd, hfield, -⟩ := h.declared_of_fieldOn hf
  have hdecl : d ∈ types.values := List.mem_map_of_mem (Table.mem_entries_of_getFrom hd)
  have hlisted : f ∈ d.fields.values := List.mem_map_of_mem (Table.mem_entries_of_getFrom hfield)
  refine List.mem_filter.2 ⟨List.mem_flatMap.2 ⟨d, hdecl, hlisted⟩, ?_⟩
  simpa using Crossings.valueType_cases f

end TypeTable.WellNamed

/-! ### The way back -/

/-- The two sides of a site that maps a type to a different one. -/
theorem Crossings.pairs_of_otherSide {type other : String} {site : MappingSite}
    (h : otherSide type site = some other) : site.Pairs type other := by
  obtain ⟨⟨rfl, rfl⟩ | ⟨rfl, rfl⟩, -⟩ := otherSide_eq_some h
  · exact .inl ⟨rfl, rfl⟩
  · exact .inr ⟨rfl, rfl⟩

/-- A site has only two sides. -/
theorem MappingSite.Pairs.eq_or_eq {site : MappingSite} {first second first' second' : String}
    (h : site.Pairs first second) (h' : site.Pairs first' second') :
    first' = first ∧ second' = second ∨ first' = second ∧ second' = first := by
  obtain ⟨rfl, rfl⟩ | ⟨rfl, rfl⟩ := h <;> obtain ⟨rfl, rfl⟩ | ⟨rfl, rfl⟩ := h' <;> simp

namespace Index

variable {idx : Index} {type field : String} {within : Option MethodId} {c : Crossing}

theorem sharesFieldName_comm (first second : String) :
    idx.sharesFieldName first second = idx.sharesFieldName second first := by
  rw [Bool.eq_iff_iff]
  simp only [sharesFieldName, List.any_eq_true, List.contains_iff_mem, List.mem_map]
  constructor <;>
  · rintro ⟨f, hf, g, hg, hname⟩
    exact ⟨g, hg, f, hf, hname.symm⟩

theorem site_mem_of_mem_crossings (hc : c ∈ idx.crossings type field within) :
    c.site ∈ idx.sitesIn within := by
  cases mem_crossings_iff.1 hc with
  | direct hsite => exact hsite
  | nested hsite => exact hsite

/-- What a nested crossing rests on: a container that declares the holder, and one across the site
that has a field of the same name. -/
structure Nests (idx : Index) (type : String) (near : String) (here there : FieldDecl)
    (c : Crossing) : Prop where
  holds : here ∈ idx.types.containersOf type
  declares : idx.types.fieldOn near c.continueAt.name = some here
  owner : here.declaringType = near
  reaches : idx.types.fieldOn c.continueAt.declaringType c.continueAt.name = some there
  next : c.nextType = Crossings.valueType there
  shares : idx.sharesFieldName type c.nextType = true
  pairs : c.site.Pairs near c.continueAt.declaringType
  differ : near ≠ c.continueAt.declaringType
  relation : c.relation = Crossings.relate .nested c.site c.continueAt.name

theorem exists_nests (h : idx.types.WellNamed) (hc : c ∈ idx.crossings type field within)
    (hkind : c.relation.kind = .nested) : ∃ near here there, idx.Nests type near here there c := by
  cases mem_crossings_iff.1 hc with
  | direct => cases hkind
  | @nested site other holder there hsite hholder hother hthere hshares =>
    exact ⟨holder.declaringType, holder, there, hholder, h.fieldOn_of_mem_containersOf hholder, rfl,
      hthere, rfl, hshares, Crossings.pairs_of_otherSide hother,
      (Crossings.otherSide_eq_some hother).2, rfl⟩

namespace Nests

variable {near : String} {here there : FieldDecl}

/-- Where the far container declares the field, the site leads back through it to what the near
holder leads to. -/
theorem back (h : idx.Nests type near here there c) (hnamed : idx.types.WellNamed)
    (hc : c ∈ idx.crossings type field within)
    (hown : there.declaringType = c.continueAt.declaringType)
    (hvalue : Crossings.valueType here = type) :
    { site := c.site, relation := c.relation, continueAt := ⟨near, c.continueAt.name⟩,
      nextType := type } ∈ idx.crossings c.nextType field within := by
  obtain ⟨d, -, -, -, hname⟩ := hnamed.declared_of_fieldOn h.reaches
  have hholder : there ∈ idx.types.containersOf c.nextType := by
    rw [h.next]
    exact hnamed.mem_containersOf_of_fieldOn h.reaches
  have hother : Crossings.otherSide there.declaringType c.site = some near := by
    rw [hown]
    exact h.pairs.symm.otherSide h.differ.symm
  have hthere : idx.types.fieldOn near there.name = some here := by
    rw [hname]
    exact h.declares
  have hshares : idx.sharesFieldName c.nextType (Crossings.valueType here) = true := by
    rw [hvalue, sharesFieldName_comm]
    exact h.shares
  have hback : idx.Carries c.nextType field (idx.sitesIn within) _ :=
    .nested (site_mem_of_mem_crossings hc) hholder hother hthere hshares
  rw [hname, hvalue, ← h.relation] at hback
  exact mem_crossings_iff.2 hback

/-- Nothing else leads back through the site. -/
theorem of_back (h : idx.Nests type near here there c) (hnamed : idx.types.WellNamed)
    {back : Crossing} (hback : back ∈ idx.crossings c.nextType field within)
    (hsite : back.site = c.site) (hrelation : back.relation = c.relation)
    (hnext : back.nextType = type) :
    c.nextType = type ∨
      there.declaringType = c.continueAt.declaringType ∧ Crossings.valueType here = type := by
  have hkind : back.relation.kind = .nested := by
    rw [hrelation, h.relation]
    rfl
  obtain ⟨near', here', there', h'⟩ := exists_nests hnamed hback hkind
  have hname : back.continueAt.name = c.continueAt.name := by
    rw [h.relation, h'.relation] at hrelation
    exact congrArg (fun r : MappingRelation => r.source.name) hrelation
  have hdeclares := h'.declares
  have hreaches := h'.reaches
  have hpairs := h'.pairs
  rw [hname] at hdeclares hreaches
  rw [hsite] at hpairs
  -- back starts at the container that the crossing came from, or at the one that it went to
  obtain ⟨-, hfar⟩ | ⟨hnear, hfar⟩ := h.pairs.eq_or_eq hpairs
  · rw [hfar] at hreaches
    cases hreaches.symm.trans h.reaches
    rw [h.next, ← h'.next, hnext]
    exact .inl rfl
  · rw [hnear] at hdeclares
    rw [hfar] at hreaches
    cases hdeclares.symm.trans h.reaches
    cases hreaches.symm.trans h.declares
    rw [← h'.next, hnext]
    exact .inr ⟨h'.owner.trans hnear, rfl⟩

/-- A crossing can be reversed exactly if it stays at its type, or both containers declare the
holder and each leads to its type. -/
theorem reversible_iff (h : idx.Nests type near here there c) (hnamed : idx.types.WellNamed)
    (hc : c ∈ idx.crossings type field within) :
    (∃ back ∈ idx.crossings c.nextType field within,
        back.site = c.site ∧ back.relation = c.relation ∧ back.nextType = type) ↔
      c.nextType = type ∨ idx.types.Leads near c.continueAt.name type ∧
        idx.types.Leads c.continueAt.declaringType c.continueAt.name c.nextType := by
  constructor
  · rintro ⟨back, hback, hsite, hrelation, hnext⟩
    refine (h.of_back hnamed hback hsite hrelation hnext).imp_right (fun ⟨hown, hvalue⟩ => ?_)
    exact ⟨⟨here, h.declares, h.owner, hvalue⟩, there, h.reaches, hown, h.next.symm⟩
  · rintro (hsame | ⟨⟨f, hf, -, hvalue⟩, g, hg, hown, -⟩)
    · exact ⟨c, hsame.symm ▸ hc, rfl, rfl, hsame⟩
    · cases hf.symm.trans h.declares
      cases hg.symm.trans h.reaches
      exact ⟨_, h.back hnamed hc hown hvalue, rfl, rfl, rfl⟩

end Nests

end Index

open Analysis (Answers)

/-- In every project a nested crossing leaves from a container that declares the holder and arrives
at another one that declares or inherits it. Searching for the crossings of the type that it leads
to finds the same site with the same relation and the way back to the first type exactly if the
crossing stays at that type, or both containers declare the holder and it leads to the first type on
the near side and to the second one on the far side. -/
theorem nested_crossing_reversible_iff (files : List Syntax.SourceFile) (skipped : List String)
    (s : Settings) (type field : String) (within : Option MethodId) :
    let idx := Index.ofFiles files skipped
    let a : IndexAccess := { index := idx }
    ∃ found, Answers a s (Crossings.of a type field within) found ∧
      ∀ c ∈ found, c.relation.kind = .nested → ∃ near back,
        let holder := c.continueAt.name
        let far := c.continueAt.declaringType
        c.site.Pairs near far ∧ near ≠ far ∧
        (∃ here ∈ idx.types.containersOf type, here.ref = ⟨near, holder⟩) ∧
        (∃ there, idx.types.fieldOn far holder = some there ∧
          Crossings.valueType there = c.nextType) ∧
        Answers a s (Crossings.of a c.nextType field within) back ∧
        ((∃ c' ∈ back, c'.site = c.site ∧ c'.relation = c.relation ∧ c'.nextType = type) ↔
          c.nextType = type ∨
            idx.types.Leads near holder type ∧ idx.types.Leads far holder c.nextType) := by
  intro idx a
  have hnamed : idx.types.WellNamed := Index.wellNamed_ofFiles files skipped
  refine ⟨_, Crossings.of_answers (a := a) type field within, fun c hc hkind => ?_⟩
  obtain ⟨near, here, there, h⟩ := Index.exists_nests hnamed hc hkind
  obtain ⟨-, -, -, -, hname⟩ := hnamed.declared_of_fieldOn h.declares
  have hhere : here.ref = ⟨near, c.continueAt.name⟩ := by rw [FieldDecl.ref, h.owner, hname]
  exact ⟨near, _, h.pairs, h.differ, ⟨here, h.holds, hhere⟩, ⟨there, h.reaches, h.next.symm⟩,
    Crossings.of_answers (a := a) c.nextType field within, h.reversible_iff hnamed hc⟩

set_option maxRecDepth 100000 in
/-- Orders and their transfer objects both declare the item, so that the mapping of orders leads
from items to their transfer objects and back. -/
theorem nested_crossing_reversible_iff_packing :
    let a : IndexAccess := { index := Packing.index }
    ∃ found back, Answers a {} (Crossings.of a "Item" "id" none) found ∧
      Answers a {} (Crossings.of a "ItemDto" "id" none) back ∧
      ∃ c ∈ found, c.relation.kind = .nested ∧ c.nextType = "ItemDto" ∧
        ∃ c' ∈ back, c'.site = c.site ∧ c'.relation = c.relation ∧ c'.nextType = "Item" := by
  intro a
  have hcrossing : (Packing.index.crossings "Item" "id" none).any (fun c =>
      c.relation.kind = .nested && c.nextType = "ItemDto" && c.site.source = "Order" &&
        c.continueAt = ⟨"OrderDto", "item"⟩) = true := by
    decide +kernel
  have hleads : Packing.index.types.Leads "Order" "item" "Item" ∧
      Packing.index.types.Leads "OrderDto" "item" "ItemDto" := by
    decide +kernel
  obtain ⟨c, hc, hfacts⟩ := List.any_eq_true.1 hcrossing
  simp only [Bool.and_eq_true, decide_eq_true_eq] at hfacts
  obtain ⟨⟨⟨hkind, hnext⟩, hsource⟩, hfar⟩ := hfacts
  obtain ⟨found, hfound, hall⟩ :=
    nested_crossing_reversible_iff Packing.files [] {} "Item" "id" none
  have hsame : found = Packing.index.crossings "Item" "id" none :=
    Except.ok.inj (hfound.outcome_eq.symm.trans
      (Crossings.of_answers (a := a) (s := {}) "Item" "id" none).outcome_eq)
  rw [← hsame] at hc
  obtain ⟨near, back, hpairs, hne, -, -, hback, hiff⟩ := hall c hc hkind
  rw [hfar] at hpairs hne hiff
  have hnear : near = "Order" := by
    obtain ⟨hnear, -⟩ | ⟨hsource', -⟩ := hpairs
    · rw [← hnear, hsource]
    · exact absurd (hsource.symm.trans hsource') (by decide)
  rw [hnext, hnear] at hiff
  rw [hnext] at hback
  exact ⟨found, back, hfound, hback, c, hc, hkind, hnext, hiff.2 (.inr hleads)⟩

namespace Wrapping

open Syntax

/-- A transfer object that inherits its item. -/
def orderDto : SourceFile where
  path := "OrderDto.java"
  bytes := "class OrderDto extends BaseDto \x7b \x7d\n".toUTF8.data
  tree := .node (.other "program") .none 0 35 [
    .node .classDeclaration .none 0 34 [
      .node .identifier .name 6 14 [],
      .node .superclass (.other "superclass") 15 30 [.node .typeIdentifier .none 23 30 []],
      .node (.other "class_body") .body 31 34 []]]

/-- A box for any type. -/
def box : SourceFile where
  path := "Box.java"
  bytes := "class Box<V> \x7b String id; \x7d\n".toUTF8.data
  tree := .node (.other "program") .none 0 28 [
    .node .classDeclaration .none 0 27 [
      .node .identifier .name 6 9 [],
      .node (.other "type_parameters") (.other "type_parameters") 9 12 [
        .node (.other "type_parameter") .none 10 11 [.node .typeIdentifier .none 10 11 []]],
      .node (.other "class_body") .body 13 27 [
        .node .fieldDeclaration .none 15 25 [
          .node .typeIdentifier .type 15 21 [],
          .node .variableDeclarator .declarator 22 24 [.node .identifier .name 22 24 []]]]]]

/-- A parcel with a box of gifts. -/
def parcel : SourceFile where
  path := "Parcel.java"
  bytes := "class Parcel \x7b Box<Gift> box; \x7d\n".toUTF8.data
  tree := .node (.other "program") .none 0 32 [
    .node .classDeclaration .none 0 31 [
      .node .identifier .name 6 12 [],
      .node (.other "class_body") .body 13 31 [
        .node .fieldDeclaration .none 15 29 [
          .node .genericType .type 15 24 [
            .node .typeIdentifier .none 15 18 [],
            .node .typeArguments .none 18 24 [.node .typeIdentifier .none 19 23 []]],
          .node .variableDeclarator .declarator 25 28 [.node .identifier .name 25 28 []]]]]]

def files : List SourceFile := [
  Nesting.classWith "Item" "String" "id", Nesting.classWith "ItemDto" "String" "id",
  Nesting.classWith "Order" "Item" "item", Nesting.classWith "BaseDto" "ItemDto" "item", orderDto,
  Packing.mapper "Sender" "send" "Order" "OrderDto",
  Nesting.classWith "Gift" "String" "id", Nesting.classWith "Crate" "String" "id", box, parcel,
  Nesting.classWith "ParcelDto" "Crate" "box", Packing.mapper "Packer" "pack" "Parcel" "ParcelDto"]

/-- The relations at which the identity of a type is carried over, with the types that they lead
to. -/
def crossed (type : String) : Option (List (MappingRelation × String)) :=
  ((Crossings.of { index := Index.ofFiles files [] } type "id" none).outcome {}).toOption.map
    (List.map (fun c => (c.relation, c.nextType)))

def itemRelation : MappingRelation := ⟨.nested, ⟨"Order", "item"⟩, ⟨"OrderDto", "item"⟩⟩

def boxRelation : MappingRelation := ⟨.nested, ⟨"Parcel", "box"⟩, ⟨"ParcelDto", "box"⟩⟩

end Wrapping

set_option maxRecDepth 100000 in
/-- Where the far container inherits the holder nothing leads back. Where the near holder has type
arguments the way back leads to one of them. -/
theorem nested_crossings_one_way :
    Wrapping.crossed "Item" = some [(Wrapping.itemRelation, "ItemDto")] ∧
      Wrapping.crossed "ItemDto" = some [] ∧
      Wrapping.crossed "Box" = some [(Wrapping.boxRelation, "Crate")] ∧
      Wrapping.crossed "Crate" = some [(Wrapping.boxRelation, "Gift")] := by
  decide +kernel

end FieldTrace
