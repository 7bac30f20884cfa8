import FieldTrace.Index.Declaration
import FieldTrace.Proofs.KeyedTables
import Mathlib.Logic.Relation

/-! # Registered types

Registering the declarations of some files adds one type after the other (`Registry.Step`), each
under a name that is not taken and inside a type that is registered already. So every type is filed
under its name and comes after the type around it, its enclosing chain ends, and the types of a
simple name are listed in order. Only a second declaration of a name and what stands inside it is
left out (`Registry.Registers`). -/

namespace FieldTrace

open Syntax

/-! ### Where types are declared -/

mutual

/-- All nodes of a tree. -/
def Syntax.Tree.nodes : Tree → List Tree
  | .node k r s e cs => .node k r s e cs :: nodesAll cs

/-- All nodes of a list of trees. -/
def Syntax.nodesAll : List Tree → List Tree
  | [] => []
  | t :: ts => t.nodes ++ nodesAll ts

end

/-- The names of all types that are declared anywhere in a file. -/
def Syntax.SourceFile.typeNames (f : SourceFile) : List String :=
  (f.tree.nodes.filter (fun t => (TypeKind.ofKind? t.kind).isSome)).filterMap
    (fun t => (t.child? .name).map f.text)

/-- A node of a file that stands inside a type or at the top, where a type may be declared. -/
structure TypeSite where
  file : SourceFile
  outer : Option String
  node : Tree

namespace TypeSite

/-- The type declared at the site, if there is one. -/
def registration? (site : TypeSite) : Option Registration :=
  Registry.registration? site.file (.ofFile site.file) site.outer site.node

/-- The sites at the top of some files. -/
def topLevel (files : List SourceFile) : List TypeSite :=
  files.flatMap (fun f => f.tree.children.map (TypeSite.mk f none))

/-- The sites among the members of a registered type. -/
def membersOf (r : Registration) : List TypeSite :=
  (Declare.members r.node).map (TypeSite.mk r.file (some r.header.name))

theorem registration?_eq_some {site : TypeSite} {r : Registration}
    (h : site.registration? = some r) :
    r.file = site.file ∧ r.node = site.node ∧ r.header.outer = site.outer ∧
      (∃ package, r.header.name =
        Registry.qualifiedName package site.outer r.header.simpleName) ∧
      ∃ n, site.node.child? .name = some n ∧ r.header.simpleName = site.file.text n ∧
        (TypeKind.ofKind? site.node.kind).isSome = true := by
  unfold registration? Registry.registration? at h
  obtain ⟨kind, hkind, h⟩ := Option.bind_eq_some_iff.1 h
  obtain ⟨n, hn, h⟩ := Option.bind_eq_some_iff.1 h
  cases h
  exact ⟨rfl, rfl, rfl, ⟨_, rfl⟩, n, hn, rfl, by rw [hkind]; rfl⟩

theorem simpleName_mem_typeNames {site : TypeSite} {r : Registration}
    (hnode : site.node ∈ site.file.tree.nodes) (h : site.registration? = some r) :
    r.header.simpleName ∈ site.file.typeNames := by
  obtain ⟨-, -, -, -, n, hn, hname, hkind⟩ := registration?_eq_some h
  rw [hname]
  refine List.mem_filterMap.2 ⟨site.node, List.mem_filter.2 ⟨hnode, hkind⟩, ?_⟩
  rw [hn]
  rfl

end TypeSite

namespace Registry

/-! ### One step of registration -/

theorem isType_add (reg : Registry) (r : Registration) (name : String) :
    (reg.add r).isType name = (decide (r.header.name = name) || reg.isType name) := by
  simp only [isType, Table.contains, add, Table.get?_insert]
  by_cases h : r.header.name = name <;> simp [h]

@[simp] theorem isType_add_self (reg : Registry) (r : Registration) :
    (reg.add r).isType r.header.name = true := by
  rw [isType_add, decide_eq_true rfl, Bool.true_or]

/-- One more type is registered: its name is not taken, and the type around it is registered. -/
inductive Step (files : List SourceFile) (reg : Registry) : Registry → Prop where
  | add {site : TypeSite} {r : Registration} (hfile : site.file ∈ files)
      (hnode : site.node ∈ site.file.tree.nodes) (hentry : site.registration? = some r)
      (houter : ∀ o, site.outer = some o → reg.isType o = true)
      (hnew : reg.isType r.header.name = false) : Step files reg (reg.add r)

/-- The types of some files are registered one after the other. -/
abbrev Steps (files : List SourceFile) : Registry → Registry → Prop :=
  Relation.ReflTransGen (Step files)

variable {files : List SourceFile} {reg reg' reg'' : Registry}

theorem Step.isType (h : Step files reg reg') {name : String} (hname : reg.isType name = true) :
    reg'.isType name = true := by
  obtain ⟨-, -, -, -, -⟩ := h
  rw [isType_add, hname, Bool.or_true]

/-- What is registered stays so. -/
theorem Steps.isType (h : Steps files reg reg') {name : String} (hname : reg.isType name = true) :
    reg'.isType name = true := by
  induction h with
  | refl => exact hname
  | tail _ hstep ih => exact hstep.isType ih

/-! ### A run of registration -/

/-- If a type is declared at the site then it is registered, or another one of its name. -/
def Covers (reg : Registry) (site : TypeSite) : Prop :=
  ∀ r, site.registration? = some r → reg.isType r.header.name = true

theorem Covers.steps {site : TypeSite} (h : reg.Covers site) (hsteps : Steps files reg reg') :
    reg'.Covers site :=
  fun r hr => hsteps.isType (h r hr)

/-- The second registry arises from the first by registering what is declared at some sites, with
all that is declared inside. -/
structure Registers (files : List SourceFile) (sites : List TypeSite) (reg reg' : Registry) :
    Prop where
  steps : Steps files reg reg'
  sites : ∀ site ∈ sites, reg'.Covers site
  members : ∀ r ∈ reg'.types.values, r ∈ reg.types.values ∨
    ∀ site ∈ TypeSite.membersOf r, reg'.Covers site

namespace Registers

variable {sites sites' : List TypeSite}

theorem refl (reg : Registry) : Registers files [] reg reg where
  steps := .refl
  sites := by rintro site ⟨⟩
  members _ hr := .inl hr

theorem trans (h : Registers files sites reg reg') (h' : Registers files sites' reg' reg'') :
    Registers files (sites ++ sites') reg reg'' where
  steps := h.steps.trans h'.steps
  sites site hsite := by
    obtain hsite | hsite := List.mem_append.1 hsite
    · exact (h.sites site hsite).steps h'.steps
    · exact h'.sites site hsite
  members r hr := by
    obtain hr | hr := h'.members r hr
    · exact (h.members r hr).imp id (fun hr site hsite => (hr site hsite).steps h'.steps)
    · exact .inr hr

theorem mono (h : Registers files sites reg reg') (hsub : sites' ⊆ sites) :
    Registers files sites' reg reg' :=
  { h with sites := fun site hsite => h.sites site (hsub hsite) }

/-- Nothing is registered where no type is declared or its name is taken. -/
theorem covered {site : TypeSite} (h : reg.Covers site) : Registers files [site] reg reg :=
  { refl reg with sites := fun _ hsite => List.mem_singleton.1 hsite ▸ h }

/-- A type and then its members. -/
theorem add {site : TypeSite} {r : Registration} (hentry : site.registration? = some r)
    (hstep : Step files reg (reg.add r))
    (h : Registers files (TypeSite.membersOf r) (reg.add r) reg') :
    Registers files [site] reg reg' where
  steps := .head hstep h.steps
  sites := by
    rintro _ ⟨⟩ r' hr'
    · cases hentry.symm.trans hr'
      exact h.steps.isType (reg.isType_add_self r)
    · contradiction
  members r' hr' := by
    obtain hr' | hr' := h.members r' hr'
    · obtain hr' | rfl := Table.mem_values_insert hr'
      · exact .inl hr'
      · exact .inr h.sites
    · exact .inr hr'

end Registers

/-- The trees that are read as members of a body. -/
def memberTrees (ts : List Tree) : List Tree :=
  ts.flatMap (fun c => if c.kind = .enumBodyDeclarations then c.children else [c])

theorem memberTrees_cons {k : Kind} {r : Role} {s e : Nat} {cs rest : List Tree} :
    memberTrees (.node k r s e cs :: rest) =
      (if k = .enumBodyDeclarations then cs else [.node k r s e cs]) ++ memberTrees rest :=
  List.flatMap_cons

theorem members_subset_memberTrees (body : Tree) : body.members ⊆ memberTrees body.children := by
  intro t ht
  obtain ⟨c, hc, ht⟩ := List.mem_flatMap.1 ht
  refine List.mem_flatMap.2 ⟨c, (List.mem_filter.1 hc).1, ?_⟩
  split at ht
  next hconstants =>
    rw [if_pos hconstants]
    exact (List.mem_filter.1 ht).1
  next hconstants =>
    rw [if_neg hconstants]
    exact ht

/-- The members of the first body among some trees. -/
def bodyMembers (ts : List Tree) : List Tree :=
  match ts.find? (fun c : Tree => c.role = .body) with
  | some body => body.members
  | none => []

theorem bodyMembers_cons {k : Kind} {r : Role} {s e : Nat} {cs rest : List Tree} :
    bodyMembers (.node k r s e cs :: rest) =
      if r = .body then Syntax.Tree.members (.node k r s e cs) else bodyMembers rest := by
  unfold bodyMembers
  rw [List.find?_cons]
  by_cases hbody : r = .body <;> simp [Tree.role, hbody]

/-! The four functions that register a file descend its tree together. What they need is that the
trees are nodes of the file and that the type around is registered, which later steps leave so. -/

section

variable {f : SourceFile}

mutual

theorem registers_registerAt (hf : f ∈ files) (outer : Option String) (reg : Registry) :
    ∀ t : Tree, t.nodes ⊆ f.tree.nodes → (∀ o, outer = some o → reg.isType o = true) →
      Registers files [⟨f, outer, t⟩] reg (reg.registerAt f (.ofFile f) outer t)
  | .node k r s e cs => by
    intro hnodes houter
    rw [registerAt]
    cases hentry : registration? f (.ofFile f) outer (.node k r s e cs) with
    | none =>
      refine .covered (fun entry' hentry' => ?_)
      cases hentry.symm.trans hentry'
    | some entry =>
      dsimp only
      split
      next htaken =>
        refine .covered (fun entry' hentry' => ?_)
        cases hentry.symm.trans hentry'
        exact htaken
      next hnew =>
        rw [Tree.nodes] at hnodes
        obtain ⟨hnode, hbelow⟩ := List.cons_subset.1 hnodes
        have hmembers := registers_registerBody hf (some entry.header.name) (reg.add entry) cs
          hbelow (by rintro _ ⟨⟩; exact reg.isType_add_self entry)
        have hsite : TypeSite.registration? ⟨f, outer, .node k r s e cs⟩ = some entry := hentry
        obtain ⟨hfile, hentrynode, -⟩ := TypeSite.registration?_eq_some hsite
        refine .add hsite (.add hf hnode hsite houter (Bool.eq_false_iff.2 hnew)) ?_
        rw [TypeSite.membersOf, hentrynode, hfile]
        exact hmembers

theorem registers_registerBody (hf : f ∈ files) (outer : Option String) (reg : Registry) :
    ∀ ts : List Tree, nodesAll ts ⊆ f.tree.nodes → (∀ o, outer = some o → reg.isType o = true) →
      Registers files ((bodyMembers ts).map (TypeSite.mk f outer)) reg
        (reg.registerBody f (.ofFile f) outer ts)
  | [] => fun _ _ => .refl reg
  | .node k r s e cs :: rest => by
    intro hnodes houter
    rw [nodesAll, Tree.nodes] at hnodes
    obtain ⟨hfirst, hrest⟩ := List.append_subset.1 hnodes
    obtain ⟨-, hbelow⟩ := List.cons_subset.1 hfirst
    rw [registerBody, bodyMembers_cons]
    by_cases hbody : r = .body
    · rw [if_pos hbody, if_pos hbody]
      exact (registers_registerMembers hf outer reg cs hbelow houter).mono
        (List.map_subset _ (members_subset_memberTrees (.node k r s e cs)))
    · rw [if_neg hbody, if_neg hbody]
      exact registers_registerBody hf outer reg rest hrest houter

theorem registers_registerMembers (hf : f ∈ files) (outer : Option String) (reg : Registry) :
    ∀ ts : List Tree, nodesAll ts ⊆ f.tree.nodes → (∀ o, outer = some o → reg.isType o = true) →
      Registers files ((memberTrees ts).map (TypeSite.mk f outer)) reg
        (reg.registerMembers f (.ofFile f) outer ts)
  | [] => fun _ _ => .refl reg
  | .node k r s e cs :: rest => by
    intro hnodes houter
    rw [nodesAll] at hnodes
    obtain ⟨hfirst, hrest⟩ := List.append_subset.1 hnodes
    rw [registerMembers, memberTrees_cons, List.map_append]
    by_cases hconstants : k = .enumBodyDeclarations
    · rw [if_pos hconstants, if_pos hconstants]
      rw [Tree.nodes] at hfirst
      have hall := registers_registerAll hf outer reg cs (List.cons_subset.1 hfirst).2 houter
      exact hall.trans (registers_registerMembers hf outer _ rest hrest
        (fun o ho => hall.steps.isType (houter o ho)))
    · rw [if_neg hconstants, if_neg hconstants]
      have hat := registers_registerAt hf outer reg (.node k r s e cs) hfirst houter
      exact hat.trans (registers_registerMembers hf outer _ rest hrest
        (fun o ho => hat.steps.isType (houter o ho)))

theorem registers_registerAll (hf : f ∈ files) (outer : Option String) (reg : Registry) :
    ∀ ts : List Tree, nodesAll ts ⊆ f.tree.nodes → (∀ o, outer = some o → reg.isType o = true) →
      Registers files (ts.map (TypeSite.mk f outer)) reg
        (reg.registerAll f (.ofFile f) outer ts)
  | [] => fun _ _ => .refl reg
  | t :: rest => by
    intro hnodes houter
    rw [nodesAll] at hnodes
    obtain ⟨hfirst, hrest⟩ := List.append_subset.1 hnodes
    rw [registerAll]
    have hat := registers_registerAt hf outer reg t hfirst houter
    exact hat.trans (registers_registerAll hf outer _ rest hrest
      (fun o ho => hat.steps.isType (houter o ho)))

end

end

/-- The files are registered from top to bottom. -/
theorem registers_ofFiles (files : List SourceFile) :
    Registers files (TypeSite.topLevel files) {} (ofFiles files) := by
  have hfold : ∀ (fs : List SourceFile) (reg : Registry), fs ⊆ files →
      Registers files (TypeSite.topLevel fs) reg (fs.foldl addFile reg) := by
    intro fs
    induction fs with
    | nil => exact fun reg _ => .refl reg
    | cons f fs ih =>
      intro reg hsub
      obtain ⟨hf, hfs⟩ := List.cons_subset.1 hsub
      have hnodes : nodesAll f.tree.children ⊆ f.tree.nodes := by
        obtain ⟨k, r, s, e, cs⟩ := f.tree
        exact List.subset_cons_self _ _
      have hfile := registers_registerAll hf none reg f.tree.children hnodes (by rintro _ ⟨⟩)
      exact hfile.trans (ih _ hfs)
  exact hfold files {} (List.Subset.refl _)

/-- What holds of no types and is kept by every step holds of the types of the files. -/
theorem invariant_ofFiles {P : Registry → Prop} (hempty : P {})
    (hstep : ∀ reg reg', Step files reg reg' → P reg → P reg') : P (ofFiles files) := by
  have hsteps : ∀ reg, Steps files {} reg → P reg := by
    intro reg hreg
    induction hreg with
    | refl => exact hempty
    | tail _ hlast ih => exact hstep _ _ hlast ih
  exact hsteps _ (registers_ofFiles files).steps

/-! ### Names -/

/-- The types are filed under their names. -/
abbrev WellNamed (reg : Registry) : Prop := reg.types.Keyed (fun name r => r.header.name = name)

theorem wellNamed_ofFiles (files : List SourceFile) : (ofFiles files).WellNamed := by
  refine invariant_ofFiles Table.keyed_empty ?_
  rintro reg _ ⟨-, -, -, -, -⟩ hreg
  exact hreg.insert rfl

theorem WellNamed.get?_header (h : reg.WellNamed) {r : Registration}
    (hr : r ∈ reg.types.values) : reg.types.get? r.header.name = some r := by
  obtain ⟨e, he, rfl⟩ := List.mem_map.1 hr
  rw [h.entry e he]
  exact h.get?_of_mem he

/-- The names and places of the types in order. -/
def headers (reg : Registry) : List TypeHeader := reg.types.values.map Registration.header

theorem headers_add {r : Registration} (hnew : reg.isType r.header.name = false) :
    (reg.add r).headers = reg.headers ++ [r.header] := by
  have hkey : r.header.name ∉ reg.types.keys := by
    rw [← Table.contains_iff]
    exact Bool.eq_false_iff.1 hnew
  have hentries : (reg.add r).types.entries = reg.types.entries ++ [(r.header.name, r)] :=
    Table.entries_alter_of_notMem hkey
  simp only [headers, Table.values, hentries, List.map_append, List.map_cons, List.map_nil]

theorem isType_iff_mem_headers (h : reg.WellNamed) {name : String} :
    reg.isType name = true ↔ name ∈ reg.headers.map TypeHeader.name := by
  rw [isType, Table.contains_iff, ← h.map_values, headers, List.map_map]
  rfl

/-- The qualified names of the types of a simple name are listed in order. -/
theorem bySimpleName_ofFiles (files : List SourceFile) (simple : String) :
    (ofFiles files).bySimpleName.getD simple [] =
      ((ofFiles files).headers.filter (fun h => h.simpleName = simple)).map TypeHeader.name := by
  refine invariant_ofFiles (P := fun reg => reg.bySimpleName.getD simple [] =
    (reg.headers.filter (fun h => h.simpleName = simple)).map TypeHeader.name) rfl ?_
  rintro reg _ ⟨-, -, -, -, hnew⟩ hreg
  rw [headers_add hnew, List.filter_append, List.map_append, ← hreg]
  simp only [add, Table.push, Table.getD_alter]
  split
  next h => simp [h, Table.getD]
  next h => simp [h]

/-! ### Nesting -/

/-- Every nested type comes after the type around it and bears its name before its own. -/
def OuterFirst (headers : List TypeHeader) : Prop :=
  ∀ before h after, headers = before ++ h :: after → ∀ o, h.outer = some o →
    o ∈ before.map TypeHeader.name ∧ h.name = o ++ "." ++ h.simpleName

theorem OuterFirst.concat {headers : List TypeHeader} (hs : OuterFirst headers) {h : TypeHeader}
    (hh : ∀ o, h.outer = some o →
      o ∈ headers.map TypeHeader.name ∧ h.name = o ++ "." ++ h.simpleName) :
    OuterFirst (headers ++ [h]) := by
  intro before h' after heq
  obtain rfl | ⟨after, last, rfl⟩ := List.eq_nil_or_concat after
  · obtain ⟨hbefore, hlast⟩ := List.append_inj' heq rfl
    cases hbefore
    cases hlast
    exact hh
  · rw [List.concat_eq_append, ← List.cons_append, ← List.append_assoc] at heq
    exact hs before h' after (List.append_inj' heq rfl).1

/-- The name of a nested type extends that of the type around it, unless that is empty. -/
theorem qualifiedName_some {package o simple : String} (ho : o ≠ "") :
    qualifiedName package (some o) simple = o ++ "." ++ simple := by
  simp [qualifiedName, Option.filter, ho]

theorem qualifiedName_ne_empty {package simple : String} {outer : Option String}
    (h : simple ≠ "") : qualifiedName package outer simple ≠ "" := by
  unfold qualifiedName
  dsimp only
  split
  · exact h
  · simp [h]

/-- Where types have names, they are registered from the outside to the inside. -/
theorem outerFirst_ofFiles (hnames : ∀ f ∈ files, "" ∉ f.typeNames) :
    (∀ h ∈ (ofFiles files).headers, h.name ≠ "") ∧ OuterFirst (ofFiles files).headers := by
  -- the names are needed because an empty one is passed over when members are named
  refine (invariant_ofFiles (P := fun reg => reg.WellNamed ∧ (∀ h ∈ reg.headers, h.name ≠ "") ∧
    OuterFirst reg.headers) ⟨Table.keyed_empty, by rintro h ⟨⟩, ?_⟩ ?_).2
  · rintro before h after heq
    cases before <;> cases heq
  · rintro reg _ (@⟨site, r, hfile, hnode, hentry, houter, hnew⟩) ⟨hnamed, hne, hfirst⟩
    obtain ⟨-, -, hsite, ⟨package, hname⟩, -⟩ := TypeSite.registration?_eq_some hentry
    have hsimple : r.header.simpleName ≠ "" := fun hempty =>
      hnames _ hfile (hempty ▸ TypeSite.simpleName_mem_typeNames hnode hentry)
    refine ⟨hnamed.insert rfl, ?_, ?_⟩
    · rw [headers_add hnew]
      intro h hh
      obtain hh | hh := List.mem_append.1 hh
      · exact hne h hh
      · rw [List.mem_singleton.1 hh, hname]
        exact qualifiedName_ne_empty hsimple
    · rw [headers_add hnew]
      refine hfirst.concat (fun o ho => ?_)
      rw [hsite] at ho
      have hmem := (isType_iff_mem_headers hnamed).1 (houter o ho)
      obtain ⟨h, hh, rfl⟩ := List.mem_map.1 hmem
      refine ⟨hmem, ?_⟩
      rw [hname, ho]
      exact qualifiedName_some (hne h hh)

/-- A chain of types, each inside the next, that ends at the top of a file. -/
inductive EnclosingChain (headers : List TypeHeader) : String → List String → Prop where
  | top {h : TypeHeader} : h ∈ headers → h.outer = none → EnclosingChain headers h.name [h.name]
  | nested {h : TypeHeader} {o : String} {chain : List String} : h ∈ headers → h.outer = some o →
      EnclosingChain headers o chain → EnclosingChain headers h.name (h.name :: chain)

/-- A type with fewer types before it than steps is followed to the end of its chain. -/
theorem enclosingChain_enclosingWithin (hnamed : reg.WellNamed)
    (hne : ∀ h ∈ reg.headers, h.name ≠ "") (hfirst : OuterFirst reg.headers) (bound : Nat) :
    ∀ before h after, reg.headers = before ++ h :: after → before.length < bound →
      EnclosingChain reg.headers h.name (reg.enclosingWithin bound h.name) := by
  induction bound with
  | zero => exact fun _ _ _ _ hlt => absurd hlt (Nat.not_lt_zero _)
  | succ bound ih =>
    intro before h after heq hlt
    have hmem : h ∈ reg.headers := by
      rw [heq]
      exact List.mem_append_right _ List.mem_cons_self
    obtain ⟨r, hr, rfl⟩ := List.mem_map.1 hmem
    rw [enclosingWithin, if_neg (hne _ hmem), hnamed.get?_header hr, Option.bind_some]
    cases houter : r.header.outer with
    | none => exact .top hmem houter
    | some o =>
      obtain ⟨ho, -⟩ := hfirst before r.header after heq o houter
      obtain ⟨h, hh, rfl⟩ := List.mem_map.1 ho
      obtain ⟨before', between, rfl⟩ := List.append_of_mem hh
      refine .nested hmem houter (ih before' h (between ++ r.header :: after) ?_ ?_)
      · rw [heq, List.append_assoc]
        rfl
      · rw [List.length_append, List.length_cons] at hlt
        omega

/-- The enclosing chain of every type ends. -/
theorem enclosingChain_enclosing (hnames : ∀ f ∈ files, "" ∉ f.typeNames) {h : TypeHeader}
    (hh : h ∈ (ofFiles files).headers) :
    EnclosingChain (ofFiles files).headers h.name ((ofFiles files).enclosing h.name) := by
  obtain ⟨hne, hfirst⟩ := outerFirst_ofFiles hnames
  obtain ⟨before, after, heq⟩ := List.append_of_mem hh
  refine enclosingChain_enclosingWithin (wellNamed_ofFiles files) hne hfirst _ before h after heq ?_
  have hsize : (ofFiles files).types.size = (ofFiles files).headers.length := by
    simp [headers, Table.values, Table.size]
  rw [hsize, heq, List.length_append]
  omega

end Registry

end FieldTrace
