import FieldTrace.Index.Basic
import FieldTrace.Proofs.Qualification

/-! # Type arguments

A class type is a chain of names, each of which may have type arguments. What is read of it is the
part before the first type arguments (`ClassType.leading`), since a type text is cut there. Without
its type arguments the class type would be read whole (`ClassType.erase`). The two are the same
where type arguments come last only. -/

namespace FieldTrace

open Syntax

/-! ### Class types -/

/-- Does the character separate the parts of a type expression? -/
def isDelimiter (c : Char) : Bool := Text.isBlank c || ['<', '>', '.', '[', ']'].contains c

/-- A name without parts. -/
structure Identifier where
  text : String
  nonempty : text ≠ ""
  plain : text.toList.all (fun c => !isDelimiter c) = true

/-- Blanks between the parts of a type expression. -/
structure Blanks where
  text : String
  blank : text.toList.all Text.isBlank = true

/-- No blanks at all. -/
def Blanks.none : Blanks := ⟨"", rfl⟩

theorem Blanks.isBlank (b : Blanks) : ∀ c ∈ b.text.toList, Text.isBlank c = true :=
  List.all_eq_true.1 b.blank

/-- A name, a member of another class type, or a class type with type arguments, of which all is
kept that follows the opening bracket. -/
inductive ClassType where
  | name (id : Identifier)
  | member (outer : ClassType) (before after : Blanks) (id : Identifier)
  | applied (base : ClassType) (before : Blanks) (arguments : String)

namespace ClassType

def text : ClassType → String
  | name id => id.text
  | member outer before after id => outer.text ++ (before.text ++ "." ++ after.text ++ id.text)
  | applied base before arguments => base.text ++ (before.text ++ "<" ++ arguments)

/-- The class type with all type arguments deleted. -/
def erase : ClassType → ClassType
  | name id => name id
  | member outer before after id => member outer.erase before after id
  | applied base _ _ => base.erase

def hasArguments : ClassType → Bool
  | name _ => false
  | member outer _ _ _ => outer.hasArguments
  | applied _ _ _ => true

/-- The part before the first type arguments. -/
def leading : ClassType → ClassType
  | name id => name id
  | member outer before after id =>
    if outer.hasArguments then outer.leading else member outer before after id
  | applied base _ _ => base.leading

/-- No member is taken of a class type with arguments. -/
def argumentsLast : ClassType → Bool
  | name _ => true
  | member outer _ _ _ => !outer.hasArguments
  | applied base _ _ => base.argumentsLast

/-- The last name. -/
def simple : ClassType → Identifier
  | name id => id
  | member _ _ _ id => id
  | applied base _ _ => base.simple

/-- The class type is what a tree of a file says. -/
inductive ReadFrom (f : SourceFile) : Tree → ClassType → Prop where
  | name {t : Tree} {id : Identifier} (hkind : t.kind = .typeIdentifier)
    (htext : f.text t = id.text) : ReadFrom f t (.name id)
  | member {t q : Tree} {outer : ClassType} {before after : Blanks} {id : Identifier}
    (hkind : t.kind = .scopedTypeIdentifier) (hq : t.children.find? Tree.isNamed = some q)
    (houter : ReadFrom f q outer) (htext : f.text t = (member outer before after id).text) :
    ReadFrom f t (.member outer before after id)
  | applied {t q : Tree} {base : ClassType} {before : Blanks} {arguments : String}
    (hkind : t.kind = .genericType) (hq : t.children.find? Tree.isNamed = some q)
    (hbase : ReadFrom f q base) (htext : f.text t = (applied base before arguments).text) :
    ReadFrom f t (.applied base before arguments)

/-! ### The part before the first type arguments -/

variable (t : ClassType)

theorem hasArguments_erase : t.erase.hasArguments = false := by
  induction t with
  | name => rfl
  | member _ _ _ _ ih => exact ih
  | applied _ _ _ ih => exact ih

theorem simple_erase : t.erase.simple = t.simple := by
  induction t with
  | name => rfl
  | member => rfl
  | applied _ _ _ ih => exact ih

theorem hasArguments_leading : t.leading.hasArguments = false := by
  induction t with
  | name => rfl
  | member outer before after id ih =>
    rw [leading]
    split
    next => exact ih
    next h => exact Bool.eq_false_iff.2 h
  | applied _ _ _ ih => exact ih

variable {t}

theorem leading_eq_self (h : t.hasArguments = false) : t.leading = t := by
  cases t with
  | name => rfl
  | member outer before after id => exact if_neg (Bool.eq_false_iff.1 h)
  | applied => cases h

theorem erase_eq_self (h : t.hasArguments = false) : t.erase = t := by
  induction t with
  | name => rfl
  | member outer before after id ih => rw [erase, ih h]
  | applied => cases h

theorem leading_eq_erase (h : t.argumentsLast = true) : t.leading = t.erase := by
  induction t with
  | name => rfl
  | member outer before after id =>
    have hnone : (member outer before after id).hasArguments = false := Bool.not_eq_true' _ ▸ h
    rw [leading_eq_self hnone, erase_eq_self hnone]
  | applied base _ _ ih => exact ih h

theorem mem_text (h : t.hasArguments = true) : '<' ∈ t.text.toList := by
  induction t with
  | name => cases h
  | member outer before after id ih =>
    rw [text, String.toList_append]
    exact List.mem_append_left _ (ih h)
  | applied => simp [text]

/-- A class type is read by its part before the first type arguments. -/
theorem stripGenerics_text : stripGenerics t.text = stripGenerics t.leading.text := by
  induction t with
  | name => rfl
  | member outer before after id ih =>
    rw [leading]
    split
    next h => rw [text, stripGenerics_append (mem_text h), ih]
    next => rfl
  | applied base before arguments ih =>
    rw [text, stripGenerics_arguments _ before.isBlank, ih, leading]

end ClassType

/-! ### Simple names -/

namespace Identifier

variable (id : Identifier)

theorem isDelimiter_eq_false {c : Char} (h : c ∈ id.text.toList) : isDelimiter c = false := by
  simpa using List.all_eq_true.1 id.plain c h

theorem notMem {c : Char} (h : isDelimiter c = true) : c ∉ id.text.toList :=
  fun hc => absurd h (Bool.eq_false_iff.1 (id.isDelimiter_eq_false hc))

theorem isBlank_eq_false {c : Char} (h : c ∈ id.text.toList) : Text.isBlank c = false :=
  (Bool.or_eq_false_iff.1 (id.isDelimiter_eq_false h)).1

theorem toList_ne_nil : id.text.toList ≠ [] := by
  simpa using id.nonempty

/-- What ends with an identifier ends with its last character. -/
theorem getLast?_append (before : String) :
    (before ++ id.text).toList.getLast? = id.text.toList.getLast? := by
  rw [String.toList_append, List.getLast?_append,
    Option.or_of_isSome (List.getLast?_isSome.2 id.toList_ne_nil)]

theorem dropWhile_append (blanks : Blanks) :
    (blanks.text ++ id.text).toList.dropWhile Text.isBlank = id.text.toList := by
  rw [String.toList_append, List.dropWhile_append_of_pos blanks.isBlank]
  obtain ⟨c, cs, htext⟩ := List.exists_cons_of_ne_nil id.toList_ne_nil
  have hc : Text.isBlank c = false := id.isBlank_eq_false (by rw [htext]; exact List.mem_cons_self)
  rw [htext, List.dropWhile_cons_of_neg (by rw [hc]; exact Bool.false_ne_true)]

/-- Identifiers that are the same after some blanks are the same. -/
theorem text_eq_of_append {id id' : Identifier} {blanks blanks' : Blanks}
    (h : blanks.text ++ id.text = blanks'.text ++ id'.text) : id.text = id'.text := by
  rw [← String.toList_inj, ← id.dropWhile_append blanks, h, id'.dropWhile_append blanks']

end Identifier

namespace ClassType

variable {t : ClassType}

theorem notMem_text (h : t.hasArguments = false) : '<' ∉ t.text.toList := by
  induction t with
  | name id => exact id.notMem (by decide)
  | member outer before after id ih =>
    have hblanks : ∀ b : Blanks, '<' ∉ b.text.toList :=
      fun b hb => absurd (b.isBlank _ hb) (by decide)
    have hid : '<' ∉ id.text.toList := id.notMem (by decide)
    simp [text, ih h, hblanks, hid]
  | applied => cases h

/-- A class type begins with a name. -/
theorem exists_text_eq_append (t : ClassType) :
    ∃ (id : Identifier) (rest : String), t.text = id.text ++ rest := by
  induction t with
  | name id => exact ⟨id, "", by simp [text]⟩
  | member outer before after id ih =>
    obtain ⟨first, rest, h⟩ := ih
    exact ⟨first, _, by rw [text, h, String.append_assoc]⟩
  | applied base before arguments ih =>
    obtain ⟨first, rest, h⟩ := ih
    exact ⟨first, _, by rw [text, h, String.append_assoc]⟩

/-- A class type without arguments ends with its last name. -/
theorem exists_text_eq_append_simple (h : t.hasArguments = false) :
    ∃ before, t.text = before ++ t.simple.text := by
  cases t with
  | name id => exact ⟨"", by simp [text, simple]⟩
  | member outer before after id => exact ⟨_, by rw [text, simple, ← String.append_assoc]⟩
  | applied => cases h

theorem getLast?_text (h : t.hasArguments = false) :
    t.text.toList.getLast? = t.simple.text.toList.getLast? := by
  obtain ⟨before, htext⟩ := exists_text_eq_append_simple h
  rw [htext, t.simple.getLast?_append]

theorem stripGenerics_text_eq_self (h : t.hasArguments = false) :
    stripGenerics t.text = t.text := by
  refine stripGenerics_eq_self (notMem_text h) (fun c hc => ?_) (fun c hc => ?_)
  · obtain ⟨first, rest, htext⟩ := t.exists_text_eq_append
    rw [htext, String.toList_append, List.head?_append,
      Option.or_of_isSome (List.isSome_head?.2 first.toList_ne_nil)] at hc
    exact first.isBlank_eq_false (List.mem_of_mem_head? hc)
  · rw [getLast?_text h] at hc
    exact t.simple.isBlank_eq_false (List.mem_of_getLast? hc)

theorem endsWith_text (h : t.hasArguments = false) : Text.endsWith t.text "[]" = false := by
  rw [Bool.eq_false_iff]
  intro hends
  obtain ⟨before, hbefore⟩ := List.isSuffixOf_iff_suffix.1 hends
  have hlast : t.text.toList.getLast? = some ']' := by
    rw [← hbefore]
    simp
  rw [getLast?_text h] at hlast
  exact t.simple.notMem (by decide) (List.mem_of_getLast? hlast)

/-- What follows the last dot is the last name, after some blanks. -/
theorem exists_simpleName_text (h : t.hasArguments = false) :
    ∃ blanks : Blanks, simpleName t.text = blanks.text ++ t.simple.text := by
  cases t with
  | name id =>
    refine ⟨.none, ?_⟩
    rw [text, simpleName, Text.afterLast_of_notMem (id.notMem (by decide)), simple, Blanks.none,
      String.empty_append]
  | member outer before after id =>
    have hdots : '.' ∉ (after.text ++ id.text).toList := by
      rw [String.toList_append]
      intro hmem
      obtain hmem | hmem := List.mem_append.1 hmem
      · exact absurd (after.isBlank _ hmem) (by decide)
      · exact id.notMem (by decide) hmem
    have htext : (member outer before after id).text =
        outer.text ++ before.text ++ "." ++ (after.text ++ id.text) := by
      simp [text, String.append_assoc]
    refine ⟨after, ?_⟩
    rw [htext, simpleName_append, simpleName, Text.afterLast_of_notMem hdots, simple]
  | applied => cases h

end ClassType

namespace NameScope

variable {s : NameScope} {n q : Tree}

theorem typeRef_name_of_unapplied
    (h : n.kind = .typeIdentifier ∨ n.kind = .scopedTypeIdentifier) :
    (s.typeRef n).name = s.qualify (s.text n) := by
  obtain ⟨k, r, a, b, cs⟩ := n
  obtain rfl | rfl : k = .typeIdentifier ∨ k = .scopedTypeIdentifier := h <;> rw [typeRef]

theorem typeRef_name_of_applied (h : n.kind = .genericType)
    (hq : n.children.find? Tree.isNamed = some q) : (s.typeRef n).name = s.qualify (s.text q) := by
  obtain ⟨k, r, a, b, cs⟩ := n
  obtain rfl : k = .genericType := h
  have hbase : cs.find? Tree.isNamed = some q := hq
  rw [typeRef, hbase, Option.map_some, Option.getD_some]

end NameScope

namespace ClassType

section reading

variable {s : NameScope} {n : Tree} {t : ClassType}

theorem ReadFrom.text_eq {f : SourceFile} (h : ReadFrom f n t) : f.text n = t.text := by
  cases h with
  | name _ htext => exact htext
  | member _ _ _ htext => exact htext
  | applied _ _ _ htext => exact htext

theorem qualify_text : s.qualify t.text = s.qualify t.leading.text :=
  Registry.qualify_congr stripGenerics_text

/-- What is read of a class type is the part before its first type arguments. -/
theorem ReadFrom.typeRef_name (h : ReadFrom s.file n t) :
    (s.typeRef n).name = s.qualify t.leading.text := by
  have htext := h.text_eq
  cases h with
  | name hkind =>
    rw [NameScope.typeRef_name_of_unapplied (.inl hkind), NameScope.text, htext, qualify_text]
  | member hkind =>
    rw [NameScope.typeRef_name_of_unapplied (.inr hkind), NameScope.text, htext, qualify_text]
  | applied hkind hq hbase =>
    rw [NameScope.typeRef_name_of_applied hkind hq, NameScope.text, hbase.text_eq, qualify_text,
      leading]

/-- Qualifying keeps the last name of a class type without arguments. -/
theorem exists_simpleName_qualify (hfiled : s.registry.FiledSimply s.context)
    (h : t.hasArguments = false) :
    ∃ blanks : Blanks, simpleName (s.qualify t.text) = blanks.text ++ t.simple.text := by
  rw [NameScope.qualify,
    Registry.simpleName_qualify hfiled (stripGenerics_text_eq_self h) (endsWith_text h)]
  exact exists_simpleName_text h

end reading

end ClassType

/-- Whatever the registered types, the file and the types around it, a class type is read by the
part before its first type arguments, and the class type with all type arguments deleted is read
whole. So the same name is read if type arguments come last. In a project, where no class bears the
name of a class around it, this is the only case in which the same name is read. -/
theorem type_arguments_erased_iff_last (s : NameScope) {f : SourceFile} {n n' : Tree}
    {t : ClassType} (h : t.ReadFrom s.file n) (h' : t.erase.ReadFrom f n') :
    let read := (s.typeRef n).name
    let erased := (NameScope.typeRef { s with file := f } n').name
    read = s.qualify t.leading.text ∧
    erased = s.qualify t.erase.text ∧
    (t.argumentsLast = true → read = erased) ∧
    (∀ files g, s.registry = .ofFiles files → s.context = .ofFile g →
      (t.leading.simple.text = t.simple.text → t.argumentsLast = true) →
      (read = erased ↔ t.argumentsLast = true)) := by
  intro read erased
  have hread : read = s.qualify t.leading.text := h.typeRef_name
  have herased : erased = s.qualify t.erase.text := by
    have hname := ClassType.ReadFrom.typeRef_name (s := { s with file := f }) h'
    rw [ClassType.leading_eq_self t.hasArguments_erase] at hname
    exact hname
  have hlast : t.argumentsLast = true → read = erased := by
    intro hlast
    rw [hread, herased, ClassType.leading_eq_erase hlast]
  refine ⟨hread, herased, hlast, fun files g hreg hctx hnames => ?_⟩
  refine ⟨fun hsame => hnames ?_, hlast⟩
  have hfiled : s.registry.FiledSimply s.context := by
    rw [hreg, hctx]
    exact Registry.filedSimply_ofFiles files g
  obtain ⟨blanks, hsimple⟩ := ClassType.exists_simpleName_qualify hfiled t.hasArguments_leading
  obtain ⟨blanks', hsimple'⟩ := ClassType.exists_simpleName_qualify hfiled t.hasArguments_erase
  rw [← hread, hsame, herased, hsimple', ClassType.simple_erase] at hsimple
  exact (Identifier.text_eq_of_append hsimple).symm

namespace Holding

/-- A class with a nested class, both for any type. -/
def outer : SourceFile where
  path := "Outer.java"
  bytes := "class Outer<T> \x7b class Inner<U> \x7b \x7d \x7d\n".toUTF8.data
  tree := .node (.other "program") .none 0 38 [
    .node .classDeclaration .none 0 37 [
      .node .identifier .name 6 11 [],
      .node (.other "type_parameters") (.other "type_parameters") 11 14 [
        .node (.other "type_parameter") .none 12 13 [.node .typeIdentifier .none 12 13 []]],
      .node (.other "class_body") .body 15 37 [
        .node .classDeclaration .none 17 35 [
          .node .identifier .name 23 28 [],
          .node (.other "type_parameters") (.other "type_parameters") 28 31 [
            .node (.other "type_parameter") .none 29 30 [.node .typeIdentifier .none 29 30 []]],
          .node (.other "class_body") .body 32 35 []]]]]

/-- The tree of `Outer<A>.Inner<B>`. -/
def item : Tree :=
  .node .genericType .type 15 32 [
    .node .scopedTypeIdentifier .none 15 29 [
      .node .genericType .none 15 23 [
        .node .typeIdentifier .none 15 20 [],
        .node .typeArguments .none 20 23 [.node .typeIdentifier .none 21 22 []]],
      .node .typeIdentifier .none 24 29 []],
    .node .typeArguments .none 29 32 [.node .typeIdentifier .none 30 31 []]]

/-- The tree of `Outer.Inner<B>`. -/
def last : Tree :=
  .node .genericType .type 39 53 [
    .node .scopedTypeIdentifier .none 39 50 [
      .node .typeIdentifier .none 39 44 [],
      .node .typeIdentifier .none 45 50 []],
    .node .typeArguments .none 50 53 [.node .typeIdentifier .none 51 52 []]]

/-- The tree of `Outer.Inner`. -/
def plain : Tree :=
  .node .scopedTypeIdentifier .type 60 71 [
    .node .typeIdentifier .none 60 65 [],
    .node .typeIdentifier .none 66 71 []]

/-- A class with fields of the nested class. -/
def holder : SourceFile where
  path := "Holder.java"
  bytes := (["class Holder \x7b Outer<A>.Inner<B> item; ",
    "Outer.Inner<B> last; Outer.Inner plain; \x7d\n"].flatMap
      (fun l => l.toUTF8.data.toList)).toArray
  tree := .node (.other "program") .none 0 81 [
    .node .classDeclaration .none 0 80 [
      .node .identifier .name 6 12 [],
      .node (.other "class_body") .body 13 80 [
        .node .fieldDeclaration .none 15 38 [
          item, .node .variableDeclarator .declarator 33 37 [.node .identifier .name 33 37 []]],
        .node .fieldDeclaration .none 39 59 [
          last, .node .variableDeclarator .declarator 54 58 [.node .identifier .name 54 58 []]],
        .node .fieldDeclaration .none 60 78 [
          plain, .node .variableDeclarator .declarator 72 77 [.node .identifier .name 72 77 []]]]]]

def files : List SourceFile := [holder, outer]

def names : NameScope := ⟨.ofFiles files, holder, .ofFile holder, ["Holder"]⟩

def outerName : Identifier := ⟨"Outer", by decide, rfl⟩

def innerName : Identifier := ⟨"Inner", by decide, rfl⟩

def itemType : ClassType :=
  .applied (.member (.applied (.name outerName) .none "A>") .none .none innerName) .none "B>"

def plainType : ClassType := .member (.name outerName) .none .none innerName

def lastType : ClassType := .applied plainType .none "B>"

set_option maxRecDepth 100000 in
theorem item_read : itemType.ReadFrom holder item :=
  .applied rfl rfl (.member rfl rfl
    (.applied rfl rfl (.name rfl (by decide +kernel)) (by decide +kernel)) (by decide +kernel))
    (by decide +kernel)

set_option maxRecDepth 100000 in
theorem last_read : lastType.ReadFrom holder last :=
  .applied rfl rfl (.member rfl rfl (.name rfl (by decide +kernel)) (by decide +kernel))
    (by decide +kernel)

set_option maxRecDepth 100000 in
theorem plain_read : plainType.ReadFrom holder plain :=
  .member rfl rfl (.name rfl (by decide +kernel)) (by decide +kernel)

end Holding

/-- Of `Outer<A>.Inner<B>` the outer class is read, other than of `Outer.Inner`; of `Outer.Inner<B>`
the nested class is read. -/
theorem type_arguments_erased_iff_last_holding :
    (Holding.names.typeRef Holding.item).name = Holding.names.qualify "Outer" ∧
      (Holding.names.typeRef Holding.item).name ≠ (Holding.names.typeRef Holding.plain).name ∧
      (Holding.names.typeRef Holding.last).name = (Holding.names.typeRef Holding.plain).name := by
  obtain ⟨hread, -, -, hiff⟩ :=
    type_arguments_erased_iff_last Holding.names Holding.item_read Holding.plain_read
  obtain ⟨-, -, hlast, -⟩ :=
    type_arguments_erased_iff_last Holding.names Holding.last_read Holding.plain_read
  refine ⟨hread, fun hsame => ?_, hlast rfl⟩
  have hnames : Holding.itemType.leading.simple.text ≠ Holding.itemType.simple.text := by decide
  exact absurd ((hiff Holding.files Holding.holder rfl rfl (fun h => absurd h hnames)).1 hsame)
    (by decide)

set_option maxRecDepth 100000 in
/-- A field of the nested class is taken for one of the outer class if the outer class has type
arguments. -/
theorem nested_class_read_as_outer :
    let types := (Index.ofFiles Holding.files []).types
    (types.fieldOn "Holder" "item").map FieldDecl.typeName = some "Outer" ∧
      (types.fieldOn "Holder" "plain").map FieldDecl.typeName = some "Outer.Inner" := by
  decide +kernel

end FieldTrace
