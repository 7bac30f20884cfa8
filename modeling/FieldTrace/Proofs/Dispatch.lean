import FieldTrace.Proofs.Edges
import FieldTrace.Proofs.Integrity
import FieldTrace.Proofs.Lineage

/-! # Overriding seen from above and from below

The methods that override a method are looked up in its subtypes, the methods that it overrides in
its supertypes. Looking down, a subtype without the signature gives its first method with the name
and the number of parameters (`TypeTable.StandsInFor`), so that an implementation is found whose
parameter types differ from those of a generic interface; looking up, only the signature counts.
Constructors are passed over looking up, and looking down only where the number of parameters
decides. In all other cases the two lookups agree. -/

namespace FieldTrace

open Syntax

/-! ### Methods as they are listed -/

/-- All types list methods of their own. -/
abbrev TypeTable.MethodsListed (types : TypeTable) : Prop :=
  types.Keyed (fun type d => ∀ m ∈ d.methods, m.id.owner = type)

namespace Index

variable (files : List SourceFile) (skipped : List String)

theorem methodsListed_ofFiles : (ofFiles files skipped).types.MethodsListed := by
  rw [(declared_ofFiles files skipped).1]
  refine (Registry.wellNamed_ofFiles files).mapValues (fun name r hr m hm => ?_)
  rw [← hr]
  exact Declare.owner_of_mem_typeOf hm

/-- The declared methods are those that the types list. -/
theorem declaresMethod_of_declares {m : MethodId} (h : (ofFiles files skipped).Declares m) :
    (ofFiles files skipped).types.DeclaresMethod m := by
  obtain ⟨decl, hdecl⟩ := Option.isSome_iff_exists.1 h
  have hid := id_of_method hdecl
  rw [method, (declared_ofFiles files skipped).2.1] at hdecl
  have hentry := Table.mem_entries_of_getFrom hdecl
  rw [entries_methods_declare (Registry.wellNamed_ofFiles files)] at hentry
  obtain ⟨_, hlisted, heq⟩ := List.mem_map.1 hentry
  cases heq
  obtain ⟨d, hd, hmem⟩ := List.mem_flatMap.1 hlisted
  rw [(declared_ofFiles files skipped).1]
  exact ⟨d, hd, decl, hmem, hid⟩

end Index

namespace TypeTable

variable {types : TypeTable} {a b m : MethodId} {type : String} {d : TypeDecl} {n : MethodDecl}

namespace MethodsListed

variable (h : types.MethodsListed)

include h

/-- A declared method is listed by its owner. -/
theorem listed (hm : types.DeclaresMethod m) :
    ∃ d, types.get? m.owner = some d ∧ ∃ decl ∈ d.methods, decl.id = m := by
  obtain ⟨d, hd, decl, hdecl, rfl⟩ := hm
  obtain ⟨e, he, rfl⟩ := List.mem_map.1 hd
  refine ⟨e.2, ?_, decl, hdecl, rfl⟩
  rw [h.entry e he decl hdecl]
  exact h.get?_of_mem he

/-- The method with a signature has that signature for its identity. -/
theorem id_of_sameSignature? (hd : types.get? type = some d) (hn : sameSignature? d m = some n) :
    n.id = ⟨type, m.name, m.params⟩ := by
  have hmem := List.mem_of_find?_eq_some hn
  have howner := h.get? hd n hmem
  have hsame := List.find?_some hn
  obtain ⟨hname, hparams⟩ := Bool.and_eq_true_iff.1 hsame
  rw [← howner, ← of_decide_eq_true hname, ← of_decide_eq_true hparams]
  rfl

/-- A type has a method with a signature if it declares it. -/
theorem sameSignature?_of_declares (hm : types.DeclaresMethod ⟨type, m.name, m.params⟩)
    (hd : types.get? type = some d) :
    ∃ n, sameSignature? d m = some n ∧ n.id = ⟨type, m.name, m.params⟩ := by
  obtain ⟨d', hd', decl, hdecl, hid⟩ := h.listed hm
  cases hd.symm.trans hd'
  have hsome : (sameSignature? d m).isSome = true := by
    refine List.find?_isSome.2 ⟨decl, hdecl, ?_⟩
    simp only [MethodDecl.name, hid, decide_true, Bool.and_self]
  obtain ⟨n, hn⟩ := Option.isSome_iff_exists.1 hsome
  exact ⟨n, hn, h.id_of_sameSignature? hd hn⟩

end MethodsListed

/-! ### The two lookups -/

/-- The first method stands in for the second in its own type: that type has no method with the
signature of the second, and the first is its first method with the name and the number of
parameters that is no constructor. -/
def StandsInFor (types : TypeTable) (b a : MethodId) : Prop :=
  ∃ d n, types.get? b.owner = some d ∧ sameSignature? d a = none ∧ sameArity? d a = some n ∧
    n.id = b

theorem StandsInFor.name_eq (h : types.StandsInFor b a) : b.name = a.name := by
  obtain ⟨d, n, -, -, hn, rfl⟩ := h
  have hsame := List.find?_some hn
  have hname := (Bool.and_eq_true_iff.1 (Bool.and_eq_true_iff.1 hsame).1).1
  exact of_decide_eq_true hname

/-- What stands in for a method has other parameter types. -/
theorem StandsInFor.params_ne (h : types.StandsInFor b a) : b.params ≠ a.params := by
  intro heq
  have hname := h.name_eq
  obtain ⟨d, n, -, hnone, hn, rfl⟩ := h
  refine List.find?_eq_none.1 hnone n (List.mem_of_find?_eq_some hn) ?_
  rw [MethodDecl.name, hname, heq, decide_eq_true rfl, decide_eq_true rfl]
  rfl

/-- Looking up finds the declared methods of supertypes with the signature, and none for a
constructor. -/
theorem mem_superMethodsOf_iff (h : types.MethodsListed) (ha : types.DeclaresMethod a) :
    a ∈ types.superMethodsOf b ↔ b.owner ∈ types.subtypesOf a.owner ∧
      (b.name = a.name ∧ b.params = a.params) ∧ b.name ≠ constructorName := by
  rw [mem_subtypesOf_iff]
  unfold superMethodsOf
  split
  next hname => exact iff_of_false List.not_mem_nil (fun hb => hb.2.2 hname)
  next hname =>
    simp only [List.mem_filterMap, Option.map_eq_some_iff]
    constructor
    · rintro ⟨d, ⟨type, htype, hd⟩, n, hn, hid⟩
      cases hid.symm.trans (h.id_of_sameSignature? hd hn)
      exact ⟨htype, ⟨rfl, rfl⟩, hname⟩
    · rintro ⟨hsuper, ⟨hsame, hparams⟩, -⟩
      obtain ⟨d, hd, -⟩ := h.listed ha
      have hdeclares : types.DeclaresMethod ⟨a.owner, b.name, b.params⟩ := by
        rw [hsame, hparams]
        exact ha
      obtain ⟨n, hn, hid⟩ := h.sameSignature?_of_declares hdeclares hd
      refine ⟨d, ⟨a.owner, hsuper, hd⟩, n, hn, ?_⟩
      rw [hid, hsame, hparams]

/-- Looking down finds the declared methods of subtypes with the signature, and what stands in for
them. -/
theorem mem_implementationsOf_iff (h : types.MethodsListed) (hb : types.DeclaresMethod b) :
    b ∈ types.implementationsOf a ↔ b.owner ∈ types.subtypesOf a.owner ∧
      ((b.name = a.name ∧ b.params = a.params) ∨ types.StandsInFor b a) := by
  simp only [implementationsOf, List.mem_filterMap, Option.map_eq_some_iff]
  constructor
  · rintro ⟨d, ⟨type, htype, hd⟩, n, hn, rfl⟩
    obtain hsame | ⟨hnone, harity⟩ := Option.or_eq_some_iff.1 hn
    · rw [h.id_of_sameSignature? hd hsame]
      exact ⟨htype, .inl ⟨rfl, rfl⟩⟩
    · have howner : n.id.owner = type := h.get? hd n (List.mem_of_find?_eq_some harity)
      rw [howner]
      exact ⟨htype, .inr ⟨d, n, by rw [howner]; exact hd, hnone, harity, rfl⟩⟩
  · rintro ⟨hsub, ⟨hname, hparams⟩ | ⟨d, n, hd, hnone, harity, rfl⟩⟩
    · obtain ⟨d, hd, -⟩ := h.listed hb
      have hdeclares : types.DeclaresMethod ⟨b.owner, a.name, a.params⟩ := by
        rw [← hname, ← hparams]
        exact hb
      obtain ⟨n, hn, hid⟩ := h.sameSignature?_of_declares hdeclares hd
      refine ⟨d, ⟨b.owner, hsub, hd⟩, n, ?_, ?_⟩
      · rw [hn]
        rfl
      · rw [hid, ← hname, ← hparams]
    · refine ⟨d, ⟨_, hsub, hd⟩, n, ?_, rfl⟩
      rw [hnone]
      exact harity

/-! ### Where the lookups agree -/

section duality

variable (h : types.MethodsListed) (ha : types.DeclaresMethod a) (hb : types.DeclaresMethod b)

include h ha hb

/-- What is found looking up is what is found looking down with the same parameter types,
constructors apart. -/
theorem mem_superMethodsOf_iff_mem_implementationsOf : a ∈ types.superMethodsOf b ↔
    b ∈ types.implementationsOf a ∧ b.params = a.params ∧ b.name ≠ constructorName := by
  rw [mem_superMethodsOf_iff h ha, mem_implementationsOf_iff h hb]
  constructor
  · rintro ⟨hsub, ⟨hname, hparams⟩, hmethod⟩
    exact ⟨⟨hsub, .inl ⟨hname, hparams⟩⟩, hparams, hmethod⟩
  · rintro ⟨⟨hsub, ⟨hname, -⟩ | hstands⟩, hparams, hmethod⟩
    · exact ⟨hsub, ⟨hname, hparams⟩, hmethod⟩
    · exact absurd hparams hstands.params_ne

/-- The lookups agree unless one method stands in for the other or both are constructors. -/
theorem lookups_agree_iff : (b ∈ types.implementationsOf a ↔ a ∈ types.superMethodsOf b) ↔
    ¬ (b.owner ∈ types.subtypesOf a.owner ∧ (types.StandsInFor b a ∨
      b.name = a.name ∧ b.params = a.params ∧ b.name = constructorName)) := by
  rw [mem_superMethodsOf_iff h ha, mem_implementationsOf_iff h hb]
  constructor
  · rintro hiff ⟨hsub, hstands | ⟨hname, hparams, hconstructor⟩⟩
    · exact hstands.params_ne (hiff.1 ⟨hsub, .inr hstands⟩).2.1.2
    · exact (hiff.1 ⟨hsub, .inl ⟨hname, hparams⟩⟩).2.2 hconstructor
  · intro hno
    refine ⟨?_, fun ⟨hsub, hsame, _⟩ => ⟨hsub, .inl hsame⟩⟩
    rintro ⟨hsub, ⟨hname, hparams⟩ | hstands⟩
    · exact ⟨hsub, ⟨hname, hparams⟩, fun hc => hno ⟨hsub, .inr ⟨hname, hparams, hc⟩⟩⟩
    · exact absurd ⟨hsub, .inl hstands⟩ hno

end duality

end TypeTable

/-- In every project a method is found looking up from another exactly if that one is found looking
down from it with the same parameter types and is no constructor. So the two lookups disagree
exactly where the one below stands in for the one above, or both are constructors with the same
parameter types. A method of a class that is not abstract is expanded to the callers of a
declaration that lists it only if the parameter types are the same. -/
theorem dispatch_dual_for_equal_signatures (files : List SourceFile) (skipped : List String)
    (s : Settings) {a b : MethodId} (ha : (Index.ofFiles files skipped).Declares a)
    (hb : (Index.ofFiles files skipped).Declares b) :
    let idx := Index.ofFiles files skipped
    (a ∈ idx.types.superMethodsOf b ↔
      b ∈ idx.types.implementationsOf a ∧ b.params = a.params ∧ b.name ≠ constructorName) ∧
    ((b ∈ idx.types.implementationsOf a ↔ a ∈ idx.types.superMethodsOf b) ↔
      ¬ (b.owner ∈ idx.types.subtypesOf a.owner ∧ (idx.types.StandsInFor b a ∨
        b.name = a.name ∧ b.params = a.params ∧ b.name = constructorName))) ∧
    ((idx.method b).any MethodDecl.isAbstract = false →
      (idx.typeDecl b.owner).any (fun d => d.kind = .interfaceType) = false →
      (a ∈ idx.familyOf s b ↔ a = b ∨
        b ∈ idx.types.implementationsOf a ∧ b.params = a.params ∧ b.name ≠ constructorName)) := by
  intro idx
  have hlisted : idx.types.MethodsListed := Index.methodsListed_ofFiles files skipped
  have ha' : idx.types.DeclaresMethod a := Index.declaresMethod_of_declares files skipped ha
  have hb' : idx.types.DeclaresMethod b := Index.declaresMethod_of_declares files skipped hb
  have hdual := TypeTable.mem_superMethodsOf_iff_mem_implementationsOf hlisted ha' hb'
  refine ⟨hdual, TypeTable.lookups_agree_iff hlisted ha' hb', fun habstract hinterface => ?_⟩
  have hnone : ¬ ((idx.method b).any MethodDecl.isAbstract = true ∨
      (idx.typeDecl b.owner).any (fun d => d.kind = .interfaceType) = true) := by
    rw [habstract, hinterface]
    simp
  rw [Index.mem_familyOf_iff]
  exact or_congr_right ((or_iff_left (fun h => hnone h.1)).trans hdual)

namespace Desk

/-- An interface for any type. -/
def handler : SourceFile where
  path := "Handler.java"
  bytes := "interface Handler<T> \x7b void handle(T t); \x7d\n".toUTF8.data
  tree := .node (.other "program") .none 0 43 [
    .node .interfaceDeclaration .none 0 42 [
      .node .identifier .name 10 17 [],
      .node (.other "type_parameters") (.other "type_parameters") 17 20 [
        .node (.other "type_parameter") .none 18 19 [.node .typeIdentifier .none 18 19 []]],
      .node (.other "interface_body") .body 21 42 [
        .node .methodDeclaration .none 23 40 [
          .node (.other "void_type") .type 23 27 [],
          .node .identifier .name 28 34 [],
          .node (.other "formal_parameters") .parameters 34 39 [
            .node .formalParameter .none 35 38 [
              .node .typeIdentifier .type 35 36 [],
              .node .identifier .name 37 38 []]]]]]]

/-- A class that implements it for one type. -/
def clerk : SourceFile where
  path := "Clerk.java"
  bytes := (["class Clerk implements Handler<Order> \x7b ",
    "Clerk() \x7b \x7d void handle(Order o) \x7b \x7d \x7d\n"].flatMap
      (fun l => l.toUTF8.data.toList)).toArray
  tree := .node (.other "program") .none 0 79 [
    .node .classDeclaration .none 0 78 [
      .node .identifier .name 6 11 [],
      .node .superInterfaces (.other "interfaces") 12 37 [
        .node (.other "type_list") .none 23 37 [
          .node .genericType .none 23 37 [
            .node .typeIdentifier .none 23 30 [],
            .node .typeArguments .none 30 37 [.node .typeIdentifier .none 31 36 []]]]],
      .node (.other "class_body") .body 38 78 [
        .node .constructorDeclaration .none 40 51 [
          .node .identifier .name 40 45 [],
          .node (.other "formal_parameters") .parameters 45 47 [],
          .node (.other "constructor_body") .body 48 51 []],
        .node .methodDeclaration .none 52 76 [
          .node (.other "void_type") .type 52 56 [],
          .node .identifier .name 57 63 [],
          .node (.other "formal_parameters") .parameters 63 72 [
            .node .formalParameter .none 64 71 [
              .node .typeIdentifier .type 64 69 [],
              .node .identifier .name 70 71 []]],
          .node (.other "block") .body 73 76 []]]]]

/-- A class that overrides the implementation. -/
def chief : SourceFile where
  path := "Chief.java"
  bytes := (["class Chief extends Clerk \x7b ",
    "Chief() \x7b \x7d void handle(Order o) \x7b \x7d \x7d\n"].flatMap
      (fun l => l.toUTF8.data.toList)).toArray
  tree := .node (.other "program") .none 0 67 [
    .node .classDeclaration .none 0 66 [
      .node .identifier .name 6 11 [],
      .node .superclass (.other "superclass") 12 25 [.node .typeIdentifier .none 20 25 []],
      .node (.other "class_body") .body 26 66 [
        .node .constructorDeclaration .none 28 39 [
          .node .identifier .name 28 33 [],
          .node (.other "formal_parameters") .parameters 33 35 [],
          .node (.other "constructor_body") .body 36 39 []],
        .node .methodDeclaration .none 40 64 [
          .node (.other "void_type") .type 40 44 [],
          .node .identifier .name 45 51 [],
          .node (.other "formal_parameters") .parameters 51 60 [
            .node .formalParameter .none 52 59 [
              .node .typeIdentifier .type 52 57 [],
              .node .identifier .name 58 59 []]],
          .node (.other "block") .body 61 64 []]]]]

def files : List SourceFile := [handler, clerk, chief]

def index : Index := Index.ofFiles files []

/-- The method of a type that handles something. -/
def handles (owner parameter : String) : MethodId := ⟨owner, "handle", [parameter]⟩

/-- The constructor of a type without parameters. -/
def makes (owner : String) : MethodId := ⟨owner, constructorName, []⟩

end Desk

set_option maxRecDepth 100000 in
/-- Between the two classes the lookups agree. The class that implements the interface stands in for
it, so that only looking down finds it. -/
theorem dispatch_dual_for_equal_signatures_desk :
    let below := Desk.handles "Chief" "Order"
    let between := Desk.handles "Clerk" "Order"
    let above := Desk.handles "Handler" "T"
    between ∈ Desk.index.types.superMethodsOf below ∧
      below ∈ Desk.index.types.implementationsOf between ∧
      above ∉ Desk.index.types.superMethodsOf between ∧
      above ∉ Desk.index.familyOf {} between := by
  have hdeclares : (Desk.index.method (Desk.handles "Chief" "Order")).isSome = true ∧
      (Desk.index.method (Desk.handles "Clerk" "Order")).isSome = true ∧
      (Desk.index.method (Desk.handles "Handler" "T")).isSome = true := by
    decide +kernel
  have hfound : Desk.handles "Chief" "Order" ∈
      Desk.index.types.implementationsOf (Desk.handles "Clerk" "Order") := by
    decide +kernel
  have hconcrete : (Desk.index.method (Desk.handles "Clerk" "Order")).any MethodDecl.isAbstract =
        false ∧
      (Desk.index.typeDecl "Clerk").any (fun d => d.kind = .interfaceType) = false := by
    decide +kernel
  obtain ⟨hbelow, hbetween, habove⟩ := hdeclares
  obtain ⟨hlower, -⟩ := dispatch_dual_for_equal_signatures Desk.files [] {} hbetween hbelow
  obtain ⟨hupper, -, hfamily⟩ := dispatch_dual_for_equal_signatures Desk.files [] {} habove hbetween
  have hparams : ¬ (Desk.handles "Clerk" "Order").params = (Desk.handles "Handler" "T").params := by
    decide
  refine ⟨hlower.2 ⟨hfound, by decide, by decide⟩, hfound, fun h => hparams (hupper.1 h).2.1,
    fun h => ?_⟩
  obtain heq | ⟨-, hsame, -⟩ := (hfamily hconcrete.1 hconcrete.2).1 h
  · exact absurd heq (by decide)
  · exact hparams hsame

set_option maxRecDepth 100000 in
/-- The interface lists the class's method as its implementation, and that method lists nothing
above it. Likewise for the constructors of the two classes. -/
theorem implementations_without_super_methods :
    Desk.index.Declares (Desk.handles "Handler" "T") ∧
      Desk.index.Declares (Desk.handles "Clerk" "Order") ∧
      Desk.handles "Clerk" "Order" ∈
        Desk.index.types.implementationsOf (Desk.handles "Handler" "T") ∧
      Desk.index.types.superMethodsOf (Desk.handles "Clerk" "Order") = [] ∧
      Desk.makes "Chief" ∈ Desk.index.types.implementationsOf (Desk.makes "Clerk") ∧
      Desk.index.types.superMethodsOf (Desk.makes "Chief") = [] := by
  unfold Index.Declares
  decide +kernel

end FieldTrace
