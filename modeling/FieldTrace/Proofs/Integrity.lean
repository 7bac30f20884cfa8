import FieldTrace.Proofs.Declarations
import FieldTrace.Proofs.Recording

/-! # Nothing in an index dangles

An index is closed (`Index.Closed`): whatever it names as an enclosing type, a listed method, a
caller, a callee or a used field is declared in it, and each declaration is filed once and under its
own name. It is so for whatever trees the files have, as long as types have names. -/

namespace FieldTrace

open Syntax

/-! ### Recorded usages -/

/-- The place is inside a method with the property. -/
def Reference.InMethod (P : MethodId → Prop) (place : Reference) : Prop :=
  ∃ m, place.enclosing = some m ∧ P m

/-- The usage stands in a method with the property, and names one or a field with a property. -/
def Usage.Concerns (P : MethodId → Prop) (Q : FieldRef → Prop) : Usage → Prop
  | call site => P site.enclosing ∧ ∀ m, site.resolved = some m → P m
  | field target place => Q target ∧ place.InMethod P
  | methodReference target place => P target ∧ place.InMethod P

namespace Index

/-- The method is declared. -/
def Declares (idx : Index) (m : MethodId) : Prop := (idx.method m).isSome = true

/-- The field is declared by its type. -/
def DeclaresField (idx : Index) (f : FieldRef) : Prop :=
  ∃ d, idx.types.get? f.declaringType = some d ∧ d.fields.contains f.name = true

/-- All recorded usages stand in methods with a property and name such methods, or fields with a
property. -/
structure RecordsOnly (P : MethodId → Prop) (Q : FieldRef → Prop) (idx : Index) : Prop where
  calls : ∀ c ∈ idx.calls, P c.enclosing ∧ ∀ m, c.resolved = some m → P m
  edges : idx.callGraph.Keyed
    (fun callee callers => P callee ∧ callers.Keyed (fun caller _ => P caller))
  methodUses : idx.methodUses.Keyed (fun m places => P m ∧ ∀ place ∈ places, place.InMethod P)
  fieldUses : idx.fieldUses.Keyed (fun f places => Q f ∧ ∀ place ∈ places, place.InMethod P)

namespace RecordsOnly

variable {P : MethodId → Prop} {Q : FieldRef → Prop} {idx : Index}

theorem recordMethodUse (h : idx.RecordsOnly P Q) {caller target : MethodId} {place : Location}
    (hcaller : P caller) (htarget : P target) :
    (idx.recordMethodUse caller target place).RecordsOnly P Q where
  calls := h.calls
  edges := by
    refine h.edges.alter target (fun old hold => ⟨htarget, ?_⟩)
    cases old with
    | none => exact Table.keyed_empty.alter caller (fun _ _ => hcaller)
    | some callers => exact (hold callers rfl).2.alter caller (fun _ _ => hcaller)
  methodUses := h.methodUses.push htarget ⟨caller, rfl, hcaller⟩
  fieldUses := h.fieldUses

theorem record (h : idx.RecordsOnly P Q) {u : Usage} (hu : u.Concerns P Q) :
    (idx.record u).RecordsOnly P Q := by
  cases u with
  | call site =>
    have hcalls : ∀ c ∈ idx.calls ++ [site], P c.enclosing ∧ ∀ m, c.resolved = some m → P m := by
      intro c hc
      obtain hc | hc := List.mem_append.1 hc
      · exact h.calls c hc
      · rw [List.mem_singleton.1 hc]
        exact hu
    have hsite : RecordsOnly P Q { idx with callRecord := idx.callRecord.add site } :=
      { h with calls := hcalls }
    simp only [Index.record]
    cases hresolved : site.resolved with
    | none => exact hsite
    | some target => exact hsite.recordMethodUse hu.1 (hu.2 target hresolved)
  | field target place =>
    exact { h with fieldUses := h.fieldUses.push hu.1 hu.2 }
  | methodReference target place =>
    obtain ⟨htarget, caller, hplace, hcaller⟩ := hu
    simp only [Index.record, hplace]
    exact h.recordMethodUse hcaller htarget

theorem foldl (h : idx.RecordsOnly P Q) {us : List Usage} (hus : ∀ u ∈ us, u.Concerns P Q) :
    (us.foldl Index.record idx).RecordsOnly P Q := by
  induction us generalizing idx with
  | nil => exact h
  | cons u us ih =>
    obtain ⟨hu, hus⟩ := List.forall_mem_cons.1 hus
    exact ih (h.record hu) hus

end RecordsOnly

/-! ### Usages of declared members -/

theorem declares_declare {reg : Registry} {m : MethodId}
    (h : (declare reg).types.DeclaresMethod m) : (declare reg).Declares m := by
  obtain ⟨d, hd, decl, hdecl, rfl⟩ := h
  refine (Table.contains_iff _ _).2 ((Table.mem_keys_foldl_insertNew _ _).2 (.inr ?_))
  exact ⟨decl, List.mem_flatMap.2 ⟨d, hd, hdecl⟩, rfl⟩

/-- Bodies are those of declared methods. -/
theorem declaresMethod_of_mem_bodies {reg : Registry} {b : MethodBody} (h : b ∈ bodies reg) :
    (declare reg).types.DeclaresMethod b.decl.id := by
  obtain ⟨r, hr, hb⟩ := List.mem_flatMap.1 h
  obtain ⟨m, hm, rfl⟩ := List.mem_map.1 hb
  refine ⟨Declare.typeOf reg r, ?_, m.1, List.mem_map_of_mem (List.mem_filter.1 hm).1, rfl⟩
  rw [values_types_declare]
  exact List.mem_map_of_mem hr

/-- A field that a lookup finds is declared. -/
theorem declaresField_of_fieldOn {idx : Index} (h : idx.types.WellNamed) {type name : String}
    {f : FieldDecl} (hf : idx.types.fieldOn type name = some f) : idx.DeclaresField f.ref := by
  obtain ⟨d, -, hd, hget, hname⟩ := h.declared_of_fieldOn hf
  refine ⟨d, hd, ?_⟩
  rw [Table.contains, show f.ref.name = name from hname, hget]
  rfl

theorem concerns_usages {files : List SourceFile} {u : Usage} (h : u ∈ usages files) :
    u.Concerns (declare (Registry.ofFiles files)).Declares
      (declare (Registry.ofFiles files)).DeclaresField := by
  obtain ⟨b, hb, hu⟩ := List.mem_flatMap.1 h
  have hbody := declares_declare (declaresMethod_of_mem_bodies hb)
  obtain ⟨henclosing, haimed⟩ := Usage.valid_of_mem_ofBody hu
  have hnamed := wellNamed_declare (Registry.wellNamed_ofFiles files)
  cases u with
  | call site =>
    rw [← Option.some.inj henclosing] at hbody
    exact ⟨hbody, fun m hm => declares_declare (haimed m hm)⟩
  | field target place =>
    obtain ⟨type, name, f, hf, rfl⟩ := haimed
    exact ⟨declaresField_of_fieldOn hnamed hf, _, henclosing, hbody⟩
  | methodReference target place => exact ⟨declares_declare haimed, _, henclosing, hbody⟩

/-! ### Closed indexes -/

/-- The names and places of the declared types in order. -/
def headers (idx : Index) : List TypeHeader := idx.types.values.map TypeDecl.toTypeHeader

/-- Everything that the index names is declared in it, once and under its own name. -/
structure Closed (idx : Index) : Prop where
  /-- Types are registered once, under their names. -/
  registry : idx.registry.WellNamed
  /-- So are their declarations filed. -/
  types : idx.types.Keyed (fun name d => d.name = name)
  /-- The declared types are the registered ones, in the same order. -/
  registered : idx.registry.headers = idx.headers
  /-- A nested type comes after the type around it, whose name its own name extends. -/
  outerFirst : Registry.OuterFirst idx.headers
  /-- Enclosing chains end at the top of a file. -/
  enclosing : ∀ d ∈ idx.types.values,
    Registry.EnclosingChain idx.headers d.name (idx.registry.enclosing d.name)
  /-- Under each simple name stand the types that have it, in order. -/
  bySimpleName : ∀ simple, idx.registry.bySimpleName.getD simple [] =
    (idx.headers.filter (fun h => h.simpleName = simple)).map TypeHeader.name
  /-- The method table holds the methods that the types list, each once. -/
  methods : idx.methods.values = idx.types.values.flatMap TypeDecl.methods
  /-- Methods are filed under their identities. -/
  methodIds : idx.methods.Keyed (fun m decl => decl.id = m)
  /-- Methods belong to the type that lists them. -/
  owner : ∀ d ∈ idx.types.values, ∀ m ∈ d.methods, m.id.owner = d.name
  /-- Fields are filed under their names in the type that declares them. -/
  fields : ∀ d ∈ idx.types.values, d.fields.Keyed (fun name f => f.ref = ⟨d.name, name⟩)
  /-- Usages stand in declared methods and name declared members. -/
  usages : idx.RecordsOnly idx.Declares idx.DeclaresField

theorem headers_declare (reg : Registry) : (declare reg).headers = reg.headers := by
  rw [headers, values_types_declare, List.map_map]
  rfl

/-- The declarations of named types are closed, before any usage is recorded. -/
theorem closed_declare {files : List SourceFile} (hnames : ∀ f ∈ files, "" ∉ f.typeNames) :
    (declare (Registry.ofFiles files)).Closed := by
  have hnamed := Registry.wellNamed_ofFiles files
  have hentries := entries_methods_declare hnamed
  have hvalues : ∀ d ∈ (declare (Registry.ofFiles files)).types.values,
      ∃ r ∈ (Registry.ofFiles files).types.values, d = Declare.typeOf (Registry.ofFiles files) r := by
    intro d hd
    rw [values_types_declare] at hd
    obtain ⟨r, hr, rfl⟩ := List.mem_map.1 hd
    exact ⟨r, hr, rfl⟩
  constructor
  case registry => exact hnamed
  case types => exact hnamed.mapValues (fun _ _ h => h)
  case registered => exact (headers_declare _).symm
  case outerFirst =>
    rw [headers_declare]
    exact (Registry.outerFirst_ofFiles hnames).2
  case enclosing =>
    intro d hd
    obtain ⟨r, hr, rfl⟩ := hvalues d hd
    rw [headers_declare]
    exact Registry.enclosingChain_enclosing hnames (List.mem_map_of_mem hr)
  case bySimpleName =>
    rw [headers_declare]
    exact Registry.bySimpleName_ofFiles files
  case methods =>
    rw [Table.values, hentries, List.map_map]
    exact List.map_id' _
  case methodIds => exact .foldl_insertNew (fun _ _ => rfl) Table.keyed_empty
  case owner =>
    intro d hd m hm
    obtain ⟨r, -, rfl⟩ := hvalues d hd
    exact Declare.owner_of_mem_typeOf hm
  case fields =>
    intro d hd
    obtain ⟨r, -, rfl⟩ := hvalues d hd
    exact Declare.fields_keyed _ _ _
  case usages => exact ⟨by rintro c ⟨⟩, Table.keyed_empty, Table.keyed_empty, Table.keyed_empty⟩

/-- Usages of declared members do not open what is closed. -/
theorem Closed.of_recordsOnly {idx idx' : Index} (h : idx.Closed) (htypes : idx'.types = idx.types)
    (hmethods : idx'.methods = idx.methods) (hregistry : idx'.registry = idx.registry)
    (husages : idx'.RecordsOnly idx.Declares idx.DeclaresField) : idx'.Closed := by
  obtain ⟨files, skipped, registry, types, methods, calls, callGraph, methodUses, fieldUses⟩ := idx'
  cases htypes
  cases hmethods
  cases hregistry
  exact { h with usages := husages }

/-- Whatever the trees of some files, their index is closed if no type has an empty name, and it
registers every type that they declare, but for further ones of a name and what these hold. -/
theorem closed_ofFiles (files : List SourceFile) (skipped : List String)
    (hnames : ∀ f ∈ files, "" ∉ f.typeNames) :
    (ofFiles files skipped).Closed ∧
      Registry.Registers files (TypeSite.topLevel files) {} (ofFiles files skipped).registry := by
  obtain ⟨htypes, hmethods, hregistry⟩ := declared_ofFiles files skipped
  have hdeclared := closed_declare hnames
  have husages := hdeclared.usages.foldl (fun u hu => concerns_usages hu)
  refine ⟨hdeclared.of_recordsOnly htypes hmethods hregistry ?_, ?_⟩
  · exact ⟨husages.calls, husages.edges, husages.methodUses, husages.fieldUses⟩
  · rw [hregistry]
    exact Registry.registers_ofFiles files

end Index

namespace Box

/-- A class with another inside, which is declared a second time and followed by one without a
name. -/
def lines : List String := [
  "class Box \x7b class Lid \x7b int n;\n",
  "int get() \x7b return n; \x7d\n",
  "int twice() \x7b return get(); \x7d \x7d\n",
  "class Lid \x7b \x7d class \x7b \x7d \x7d\n"]

/-- The lines with their parse tree. -/
def file : SourceFile where
  path := "Box.java"
  bytes := (lines.flatMap (fun l => l.toUTF8.data.toList)).toArray
  tree := .node (.other "program") .none 0 113 [
    .node .classDeclaration .none 0 112 [
      .node .identifier .name 6 9 [],
      .node (.other "class_body") .body 10 112 [
        .node .classDeclaration .none 12 86 [
          .node .identifier .name 18 21 [],
          .node (.other "class_body") .body 22 86 [
            .node .fieldDeclaration .none 24 30 [
              .node (.other "integral_type") .type 24 27 [],
              .node .variableDeclarator .declarator 28 29 [.node .identifier .name 28 29 []]],
            .node .methodDeclaration .none 31 54 [
              .node (.other "integral_type") .type 31 34 [],
              .node .identifier .name 35 38 [],
              .node (.other "formal_parameters") .parameters 38 40 [],
              .node (.other "block") .body 41 54 [
                .node (.other "return_statement") .none 43 52 [
                  .node .identifier .none 50 51 []]]],
            .node .methodDeclaration .none 55 84 [
              .node (.other "integral_type") .type 55 58 [],
              .node .identifier .name 59 64 [],
              .node (.other "formal_parameters") .parameters 64 66 [],
              .node (.other "block") .body 67 84 [
                .node (.other "return_statement") .none 69 82 [
                  .node .methodInvocation .none 76 81 [
                    .node .identifier .name 76 79 [],
                    .node (.other "argument_list") .arguments 79 81 []]]]]]],
        .node .classDeclaration .none 87 100 [
          .node .identifier .name 93 96 [],
          .node (.other "class_body") .body 97 100 []],
        .node .classDeclaration .none 101 110 [
          .node (.other "class_body") .body 107 110 []]]]]

end Box

set_option maxRecDepth 100000 in
/-- The index of boxes is closed: their lids are filed after them, and the one recorded call is that
of a method of lids by another. -/
theorem closed_ofFiles_box :
    (Index.ofFiles [Box.file] []).Closed ∧
      (Index.ofFiles [Box.file] []).types.keys = ["Box", "Box.Lid"] ∧
      (Index.ofFiles [Box.file] []).callGraph.keys = [⟨"Box.Lid", "get", []⟩] ∧
      (Index.ofFiles [Box.file] []).fieldUses.keys = [⟨"Box.Lid", "n"⟩] := by
  refine ⟨(Index.closed_ofFiles [Box.file] [] ?_).1, ?_⟩
  · intro f hf
    rw [List.mem_singleton.1 hf]
    decide +kernel
  · decide +kernel

end FieldTrace
