import FieldTrace.Proofs.Strategies
import FieldTrace.Proofs.Usages

/-! # What an index records

An index is filled from the usages in the method bodies, one after the other. So the calls and uses
that it answers with are those of the bodies in reading order (`Index.usages`), and each is filed
under the method whose body contains it. -/

namespace FieldTrace

open Syntax

namespace Usage

/-! ### Parts of a usage -/

/-- The call, if the usage is one. -/
def call? : Usage → Option CallSite
  | call site => some site
  | _ => none

/-- The place, if the usage is a call of the method or a reference to it. -/
def useOf? (m : MethodId) : Usage → Option Reference
  | call site => if site.resolved = some m then some ⟨some site.enclosing, site.location⟩ else none
  | methodReference target place =>
    if target = m ∧ place.enclosing.isSome then some place else none
  | field _ _ => none

/-- The place, if the usage is one of the field. -/
def useOfField? (f : FieldRef) : Usage → Option Reference
  | field target place => if target = f then some place else none
  | _ => none

/-- The usage is a call that resolves to the method, or a reference to it, at the place. -/
def RefersTo (m : MethodId) (l : Location) : Usage → Prop
  | call site => site.resolved = some m ∧ site.location = l
  | methodReference target place => target = m ∧ place.location = l
  | field _ _ => False

theorem useOf?_eq_some_iff {m q : MethodId} {l : Location} {u : Usage} :
    u.useOf? m = some ⟨some q, l⟩ ↔ u.enclosing = some q ∧ u.RefersTo m l := by
  cases u with
  | call site =>
    simp only [useOf?, enclosing, RefersTo, Option.ite_none_right_eq_some, Option.some.injEq,
      Reference.mk.injEq]
    exact ⟨fun ⟨h, hq, hl⟩ => ⟨hq, h, hl⟩, fun ⟨hq, h, hl⟩ => ⟨h, hq, hl⟩⟩
  | field target place => simp [useOf?, RefersTo]
  | methodReference target place =>
    obtain ⟨caller, location⟩ := place
    simp only [useOf?, enclosing, RefersTo, Option.ite_none_right_eq_some, Option.some.injEq,
      Reference.mk.injEq]
    constructor
    · rintro ⟨⟨htarget, -⟩, hq, hl⟩
      exact ⟨hq, htarget, hl⟩
    · rintro ⟨hq, htarget, hl⟩
      exact ⟨⟨htarget, by simp [hq]⟩, hq, hl⟩

theorem useOfField?_eq_some_iff {f : FieldRef} {place : Reference} {u : Usage} :
    u.useOfField? f = some place ↔ u = field f place := by
  cases u with
  | call site => simp [useOfField?]
  | methodReference target place => simp [useOfField?]
  | field target place' => simp [useOfField?]

end Usage

namespace Index

/-! ### Recording one usage after the other -/

theorem calls_record (idx : Index) (u : Usage) :
    (idx.record u).calls = idx.calls ++ u.call?.toList := by
  cases u with
  | call site =>
    simp only [record]
    cases site.resolved <;> rfl
  | field target place => exact (List.append_nil _).symm
  | methodReference target place =>
    simp only [record, Usage.call?, Option.toList_none, List.append_nil]
    cases place.enclosing <;> rfl

theorem methodReferences_recordMethodUse (idx : Index) (caller target m : MethodId)
    (place : Location) :
    (idx.recordMethodUse caller target place).methodReferences m =
      idx.methodReferences m ++ if target = m then [⟨some caller, place⟩] else [] := by
  simp only [methodReferences, recordMethodUse, Table.push, Table.getD_alter]
  split
  next h =>
    subst h
    rfl
  next => exact (List.append_nil _).symm

theorem methodReferences_record (m : MethodId) (idx : Index) (u : Usage) :
    (idx.record u).methodReferences m = idx.methodReferences m ++ (u.useOf? m).toList := by
  cases u with
  | call site =>
    simp only [record, Usage.useOf?]
    cases site.resolved with
    | none => exact (List.append_nil _).symm
    | some target =>
      rw [methodReferences_recordMethodUse]
      by_cases h : target = m <;> simp [h, methodReferences]
  | field target place => exact (List.append_nil _).symm
  | methodReference target place =>
    obtain ⟨caller, location⟩ := place
    simp only [record, Usage.useOf?]
    cases caller with
    | none => simp
    | some caller =>
      rw [methodReferences_recordMethodUse]
      by_cases h : target = m <;> simp [h]

theorem fieldUses_record (f : FieldRef) (idx : Index) (u : Usage) :
    (idx.record u).fieldUses.getD f [] = idx.fieldUses.getD f [] ++ (u.useOfField? f).toList := by
  cases u with
  | call site =>
    simp only [record, Usage.useOfField?, Option.toList_none, List.append_nil]
    cases site.resolved <;> rfl
  | field target place =>
    simp only [record, Usage.useOfField?, Table.push, Table.getD_alter]
    by_cases h : target = f
    · subst h
      simp [Table.getD]
    · simp [h]
  | methodReference target place =>
    simp only [record, Usage.useOfField?, Option.toList_none, List.append_nil]
    cases place.enclosing <;> rfl

/-- A list that grows by a part of each usage is, in the end, made of the parts of all usages. -/
theorem foldl_record {α : Type} (list : Index → List α) {part : Usage → Option α}
    (h : ∀ idx u, list (idx.record u) = list idx ++ (part u).toList) (us : List Usage)
    (idx : Index) : list (us.foldl record idx) = list idx ++ us.filterMap part := by
  induction us generalizing idx with
  | nil => simp
  | cons u us ih =>
    rw [List.foldl_cons, ih, h, List.append_assoc, List.filterMap_cons]
    cases part u <;> rfl

/-! ### What the index of some files holds -/

variable (files : List SourceFile) (skipped : List String)

/-- The usages of all bodies in reading order. -/
def usages : List Usage :=
  (bodies (Registry.ofFiles files)).flatMap
    (Usage.ofBody (declare (Registry.ofFiles files)).types)

theorem calls_ofFiles :
    (ofFiles files skipped).calls = (usages files).filterMap Usage.call? :=
  foldl_record calls calls_record _ _

theorem methodReferences_ofFiles (m : MethodId) :
    (ofFiles files skipped).methodReferences m = (usages files).filterMap (Usage.useOf? m) :=
  foldl_record (fun idx => idx.methodReferences m) (methodReferences_record m) _ _

theorem fieldUses_ofFiles (f : FieldRef) :
    (ofFiles files skipped).fieldUses.getD f [] = (usages files).filterMap (Usage.useOfField? f) :=
  foldl_record (fun idx => idx.fieldUses.getD f []) (fieldUses_record f) _ _

end Index

/-- The body of the method contains the usage. -/
def Usage.OccursIn (files : List SourceFile) (q : MethodId) (u : Usage) : Prop :=
  ∃ b ∈ Index.bodies (Registry.ofFiles files), b.decl.id = q ∧
    u ∈ Usage.ofBody (Index.declare (Registry.ofFiles files)).types b

theorem Usage.occursIn_iff {files : List SourceFile} {q : MethodId} {u : Usage} :
    u.OccursIn files q ↔ u ∈ Index.usages files ∧ u.enclosing = some q := by
  constructor
  · rintro ⟨b, hb, rfl, hu⟩
    exact ⟨List.mem_flatMap.2 ⟨b, hb, hu⟩, (valid_of_mem_ofBody hu).1⟩
  · rintro ⟨hu, hq⟩
    obtain ⟨b, hb, hu⟩ := List.mem_flatMap.1 hu
    exact ⟨b, hb, Option.some.inj ((valid_of_mem_ofBody hu).1.symm.trans hq), hu⟩

namespace Index

variable {files : List SourceFile} {skipped : List String}

/-- The calls of an index are those that occur in the bodies. -/
theorem mem_calls_iff {c : CallSite} :
    c ∈ (ofFiles files skipped).calls ↔ (Usage.call c).OccursIn files c.enclosing := by
  rw [calls_ofFiles, List.mem_filterMap, Usage.occursIn_iff]
  constructor
  · rintro ⟨u, hu, hc⟩
    cases u with
    | call site =>
      cases hc
      exact ⟨hu, rfl⟩
    | field | methodReference => cases hc
  · rintro ⟨hu, -⟩
    exact ⟨_, hu, rfl⟩

/-- The references to a method are the places where a body calls it or refers to it. -/
theorem mem_methodReferences_iff {m q : MethodId} {l : Location} :
    ⟨some q, l⟩ ∈ (ofFiles files skipped).methodReferences m ↔
      ∃ u : Usage, u.OccursIn files q ∧ u.RefersTo m l := by
  rw [methodReferences_ofFiles, List.mem_filterMap]
  refine exists_congr (fun u => ?_)
  rw [Usage.useOf?_eq_some_iff, Usage.occursIn_iff, and_assoc]

theorem mem_callersOf_iff {m q : MethodId} {l : Location} :
    ⟨some q, l⟩ ∈ (ofFiles files skipped).callersOf m ↔
      ∃ u : Usage, u.OccursIn files q ∧ u.RefersTo m l := by
  have hgroups := (inStep_ofFiles files skipped).sameGroups m
  have hrefs : ⟨some q, l⟩ ∈ (ofFiles files skipped).callersOf m ↔
      ⟨some q, l⟩ ∈ (ofFiles files skipped).methodReferences m := by
    rw [mem_iff_mem_placesIn rfl, mem_iff_mem_placesIn rfl, hgroups.places]
  exact hrefs.trans mem_methodReferences_iff

/-- The uses of a field are the places where a body names it. -/
theorem mem_fieldUses_iff {f : FieldRef} {q : MethodId} {l : Location} :
    ⟨some q, l⟩ ∈ (ofFiles files skipped).fieldUses.getD f [] ↔
      (Usage.field f ⟨some q, l⟩).OccursIn files q := by
  rw [fieldUses_ofFiles, List.mem_filterMap, Usage.occursIn_iff]
  simp only [Usage.useOfField?_eq_some_iff, exists_eq_right, Usage.enclosing, and_true]

end Index

end FieldTrace
