import FieldTrace.Proofs.Integrity

/-! # Looking fields up and listing them

A type has the fields that are declared nearest along its lineage (`Index.HasField`). Three walks
over the lineage find them: the lookup of one name takes the first declaration, the listing files
each field under its name unless that is taken, and the references of a field are those of the
declaration that the lookup finds. They agree in every index of a project. -/

namespace FieldTrace

open Syntax

/-! ### One name along the lineage -/

namespace TypeTable

variable {types : TypeTable} {type name : String}

theorem declarationsAlong_eq : types.declarationsAlong type =
    (types.get? type).toList ++ (types.supertypesOf type).filterMap types.get? := by
  rw [declarationsAlong, lineage]
  cases hd : types.get? type with
  | none => rw [List.filterMap_cons_none hd, Option.toList_none, List.nil_append]
  | some d => rw [List.filterMap_cons_some hd, Option.toList_some, List.singleton_append]

/-- A type's own fields are listed before those that it inherits. -/
theorem ownFields_first : types.fieldsOf type false <+: types.fieldsOf type true := by
  rw [fieldsOf_eq_listing, fieldsOf_eq_listing, if_neg Bool.false_ne_true, if_pos rfl,
    declarationsAlong_eq, List.flatMap_append]
  unfold listing
  rw [List.foldl_append]
  exact (Table.entries_prefix_foldl_insertNew _ _).map Prod.snd

/-- Where fields are filed under their names, the first field of a name along the lineage is the
nearest. -/
theorem WellNamed.find?_fields (h : types.WellNamed) :
    ((types.declarationsAlong type).flatMap (fun d => d.fields.values)).find?
      (fun f => f.name = name) = types.fieldOn type name := by
  rw [List.find?_flatMap, fieldOn, ← List.head?_filterMap, ← List.head?_filterMap]
  apply congrArg List.head?
  apply List.filterMap_congr
  intro d hd
  obtain ⟨owner, -, howner⟩ := List.mem_filterMap.1 hd
  have hfields : d.fields.Keyed (fun name f => f.name = name) :=
    (h.get? howner).mono (fun _ _ href => congrArg FieldRef.name href)
  exact hfields.find?_values name

/-- A field is listed exactly if it is what its name looks up. -/
theorem WellNamed.mem_fieldsOf_iff (h : types.WellNamed) {r : FieldRef} :
    r ∈ types.fieldsOf type true ↔ ∃ f, types.fieldOn type r.name = some f ∧ f.ref = r := by
  rw [fieldsOf_eq_listing, if_pos rfl, (keyed_listing _).mem_values_iff, listing,
    Table.get?_foldl_insertNew, Table.get?_empty, Option.none_or, h.find?_fields,
    Option.map_eq_some_iff]

/-- The field of a name that a type declares itself. -/
def ownField (types : TypeTable) (name type : String) : Option FieldDecl :=
  (types.get? type).bind (fun d => d.fields.get? name)

theorem WellNamed.ref_of_ownField (h : types.WellNamed) {f : FieldDecl}
    (hf : types.ownField name type = some f) : f.ref = ⟨type, name⟩ := by
  obtain ⟨d, hd, hf⟩ := Option.bind_eq_some_iff.1 hf
  exact (h.get? hd).get? hf

theorem fieldOn_eq_findSome? :
    types.fieldOn type name = (types.lineage type).findSome? (types.ownField name) := by
  rw [fieldOn, declarationsAlong, ← List.head?_filterMap, ← List.head?_filterMap,
    List.filterMap_filterMap]
  rfl

end TypeTable

/-! ### The fields that a type has -/

namespace Index

variable {idx : Index} {type name : String} {r : FieldRef} {f : FieldDecl}

/-- The type has the field, as its own or inherited and not hidden: the field is declared along the
lineage of the type, and no nearer type declares its name. -/
structure HasField (idx : Index) (type : String) (r : FieldRef) : Prop where
  declared : idx.DeclaresField r
  nearest : ∃ nearer farther, idx.types.lineage type = nearer ++ r.declaringType :: farther ∧
    ∀ t ∈ nearer, ¬ idx.DeclaresField ⟨t, r.name⟩

theorem declaresField_iff : idx.DeclaresField r ↔
    (idx.types.ownField r.name r.declaringType).isSome = true := by
  unfold DeclaresField TypeTable.ownField Table.contains
  cases idx.types.get? r.declaringType with
  | none => simp
  | some d => simp

/-- A type has the field that a lookup finds, and no other of its name. -/
theorem hasField_iff (h : idx.types.WellNamed) :
    idx.HasField type r ↔ ∃ f, idx.types.fieldOn type r.name = some f ∧ f.ref = r := by
  rw [TypeTable.fieldOn_eq_findSome?]
  constructor
  · rintro ⟨hdeclared, nearer, farther, hlineage, hnearer⟩
    obtain ⟨f, hf⟩ := Option.isSome_iff_exists.1 (declaresField_iff.1 hdeclared)
    refine ⟨f, List.findSome?_eq_some_iff.2 ⟨nearer, _, farther, hlineage, hf, ?_⟩,
      h.ref_of_ownField hf⟩
    intro t ht
    have hnone := mt declaresField_iff.2 (hnearer t ht)
    rwa [Option.not_isSome_iff_eq_none] at hnone
  · rintro ⟨f, hf, rfl⟩
    obtain ⟨nearer, owner, farther, hlineage, hf, hnearer⟩ := List.findSome?_eq_some_iff.1 hf
    have howner : f.ref.declaringType = owner :=
      congrArg FieldRef.declaringType (h.ref_of_ownField hf)
    constructor
    · rw [declaresField_iff, howner, hf]
      rfl
    · refine ⟨nearer, farther, by rw [howner]; exact hlineage, fun t ht hdeclared => ?_⟩
      have hsome := declaresField_iff.1 hdeclared
      rw [hnearer t ht] at hsome
      cases hsome

theorem fieldReferences_eq (hf : idx.types.fieldOn type name = some f) :
    idx.fieldReferences ⟨type, name⟩ = idx.fieldUses.getD f.ref [] := by
  unfold fieldReferences
  rw [hf]

/-- A field has the same references for all types that have it. -/
theorem fieldReferences_of_fieldOn (h : idx.types.WellNamed)
    (hf : idx.types.fieldOn type name = some f) :
    idx.fieldReferences ⟨type, name⟩ = idx.fieldReferences f.ref := by
  have hown : idx.fieldReferences f.ref = idx.fieldUses.getD f.ref [] :=
    fieldReferences_eq (h.fieldOn_ref hf)
  rw [fieldReferences_eq hf, hown]

/-- The listing of a type's fields has each name once, the type's own fields first, and a field of a
name exactly if the lookup finds one, which is then that field. What the lookup finds is the nearest
declaration, and the references found for it are the same whichever type with the field they are
asked of. -/
theorem field_lookups_agree (files : List SourceFile) (skipped : List String) :
    let idx := Index.ofFiles files skipped
    (∀ type, ((idx.types.fieldsOf type true).map FieldRef.name).Nodup ∧
        idx.types.fieldsOf type false <+: idx.types.fieldsOf type true) ∧
      (∀ type name r, r ∈ idx.types.fieldsOf type true ∧ r.name = name ↔
        ∃ f, idx.types.fieldOn type name = some f ∧ f.ref = r) ∧
      (∀ type name f, idx.types.fieldOn type name = some f → f.name = name ∧
        idx.HasField type f.ref ∧
        idx.fieldReferences ⟨type, name⟩ = idx.fieldReferences f.ref) ∧
      ∀ heir r, idx.HasField heir r →
        idx.fieldReferences ⟨heir, r.name⟩ = idx.fieldReferences r := by
  intro idx
  have h : idx.types.WellNamed := wellNamed_ofFiles files skipped
  have hname : ∀ {type name f}, idx.types.fieldOn type name = some f → f.name = name := by
    intro type name f hf
    obtain ⟨-, -, -, -, hname⟩ := h.declared_of_fieldOn hf
    exact hname
  refine ⟨fun type => ⟨?_, TypeTable.ownFields_first⟩, fun type name r => ⟨?_, ?_⟩,
    fun type name f hf => ⟨hname hf, ?_, fieldReferences_of_fieldOn h hf⟩, fun heir r hr => ?_⟩
  · rw [TypeTable.fieldsOf_eq_listing, (TypeTable.keyed_listing _).map_values]
    exact (TypeTable.keyed_listing _).nodup
  · rintro ⟨hr, rfl⟩
    exact h.mem_fieldsOf_iff.1 hr
  · rintro ⟨f, hf, rfl⟩
    have hf' : f.ref.name = name := hname hf
    exact ⟨h.mem_fieldsOf_iff.2 ⟨f, by rw [hf']; exact hf, rfl⟩, hf'⟩
  · have hf' : f.ref.name = name := hname hf
    exact (hasField_iff h).2 ⟨f, by rw [hf']; exact hf, rfl⟩
  · obtain ⟨f, hf, rfl⟩ := (hasField_iff h).1 hr
    exact fieldReferences_of_fieldOn h hf

end Index

end FieldTrace
