import FieldTrace.Proofs.Contexts
import FieldTrace.Proofs.Recording

/-! # What the edges of a tree mean

In the tree of a project each edge tells something about the sources (`Edge`). A caller below a
method calls or mentions it at the place shown, or a method that dispatch may exchange it with. A
caller below an accessor calls it by name, or mentions the method that declares it. A method below
the root uses the field. Below a mapping node are the method that declares the site and the
accessors of the field on the far side. -/

namespace FieldTrace

open Syntax (SourceFile)

/-! ### Callers and places -/

/-- The callers and places that are shown are among the references. -/
theorem CallerGroups.mem_of_mem_collect {callerLimit callSiteLimit : Nat} {refs : List Reference}
    {m : MethodId} {l : Location} (h : (m, l) ∈ collect callerLimit callSiteLimit refs) :
    ⟨some m, l⟩ ∈ refs := by
  rw [collect_eq] at h
  obtain ⟨_, -, hp⟩ := List.mem_flatMap.1 h
  obtain ⟨_, hl, heq⟩ := List.mem_map.1 hp
  cases heq
  exact (mem_iff_mem_placesIn rfl).2 (mem_distinct.1 (List.mem_of_mem_take hl))

theorem mem_foldl_addNew {α : Type} [DecidableEq α] {x : α} (bs : List α) :
    ∀ as : List α, x ∈ bs.foldl addNew as ↔ x ∈ as ∨ x ∈ bs := by
  induction bs with
  | nil => simp
  | cons b bs ih =>
    intro as
    rw [List.foldl_cons, ih, mem_addNew, List.mem_cons, or_assoc]

namespace Index

/-- Dispatch may exchange the method with another: with a method that it overrides, or with one of
the first that override it, if it is abstract or declared in an interface. -/
def Exchanges (idx : Index) (s : Settings) (m x : MethodId) : Prop :=
  x = m ∨ x ∈ idx.types.superMethodsOf m ∨
    ((idx.method m).any MethodDecl.isAbstract = true ∨
      (idx.typeDecl m.owner).any (fun d => d.kind = .interfaceType) = true) ∧
    x ∈ (idx.types.implementationsOf m).take s.implementationLimit

variable {files : List SourceFile} {skipped : List String} {s : Settings}

theorem mem_familyOf_iff {m x : MethodId} :
    x ∈ (ofFiles files skipped).familyOf s m ↔ (ofFiles files skipped).Exchanges s m x := by
  -- a constructor overrides nothing, whether or not that is asked
  have habove : (if ((ofFiles files skipped).method m).any MethodDecl.isConstructor = true then []
      else (ofFiles files skipped).types.superMethodsOf m) =
      (ofFiles files skipped).types.superMethodsOf m := by
    split
    next h => rw [TypeTable.superMethodsOf, if_pos (name_of_isConstructor h)]
    next => rfl
  rw [familyOf, habove, List.mem_cons, List.mem_append, Exchanges]
  refine or_congr_right (or_comm.trans (or_congr_right ?_))
  split
  next h => exact (and_iff_right (Bool.or_eq_true_iff.1 h)).symm
  next h => exact iff_of_false List.not_mem_nil (fun hx => h (Bool.or_eq_true_iff.2 hx.1))

theorem mem_usesOf_iff {m q : MethodId} {l : Location} :
    ⟨some q, l⟩ ∈ (ofFiles files skipped).usesOf s m ↔
      ∃ u : Usage, u.OccursIn files q ∧ u.RefersTo m l := by
  unfold usesOf
  cases CallerSearch.forSettings s with
  | callGraph => exact mem_callersOf_iff
  | referenceSearch => exact mem_methodReferences_iff

/-- Callers through dispatch are outside the family, and mention a method of it. -/
theorem mem_usesThroughDispatch_iff {m q : MethodId} {l : Location} :
    ⟨some q, l⟩ ∈ (ofFiles files skipped).usesThroughDispatch s m ↔
      ¬ (ofFiles files skipped).Exchanges s m q ∧ ∃ x, (ofFiles files skipped).Exchanges s m x ∧
        ∃ u : Usage, u.OccursIn files q ∧ u.RefersTo x l := by
  simp only [usesThroughDispatch, List.mem_flatMap, mem_distinct, List.mem_filter, mem_usesOf_iff,
    mem_familyOf_iff, Option.any_some, Bool.not_eq_true', List.contains_eq_mem,
    decide_eq_false_iff_not]
  constructor
  · rintro ⟨x, hx, hu, houtside⟩
    exact ⟨houtside, x, hx, hu⟩
  · rintro ⟨houtside, x, hx, hu⟩
    exact ⟨x, hx, hu, houtside⟩

end Index

/-- The call resolves to a method of the owner, or is made on something typed as the owner or as one
of its subtypes. -/
def CallSite.IsOn (types : TypeTable) (owner : String) (c : CallSite) : Prop :=
  (∃ m, c.resolved = some m ∧ m.owner = owner) ∨
    ∃ t, c.receiver.staticType = some t ∧ (t = owner ∨ types.isSubtype t owner = true)

namespace Index

variable {files : List SourceFile} {skipped : List String} {s : Settings}

theorem mem_accessorUses_iff {idx : Index} {x : Accessor} {r : Reference} :
    r ∈ idx.accessorUses s x ↔
      r ∈ idx.memberCalls x.owner x.name ∨ ∃ m, x.declared = some m ∧ r ∈ idx.usesOf s m := by
  unfold accessorUses
  cases x.declared with
  | none => simp
  | some m => simp [mem_foldl_addNew]

theorem isOn_of_isMemberCall {idx : Index} {owner : String} {c : CallSite}
    (h : idx.isMemberCall owner c = true) : c.IsOn idx.types owner := by
  obtain h | h := Bool.or_eq_true_iff.1 h
  · obtain ⟨m, hm, howner⟩ := (Option.any_eq_true _ _).1 h
    exact .inl ⟨m, hm, of_decide_eq_true howner⟩
  · obtain ⟨t, ht, htype⟩ := (Option.any_eq_true _ _).1 h
    obtain htype | htype := Bool.or_eq_true_iff.1 htype
    · exact .inr ⟨t, ht, .inl (of_decide_eq_true htype)⟩
    · exact .inr ⟨t, ht, .inr (Bool.and_eq_true_iff.1 htype).2⟩

theorem exists_call_of_mem_memberCalls {owner name : String} {q : MethodId} {l : Location}
    (h : ⟨some q, l⟩ ∈ (ofFiles files skipped).memberCalls owner name) :
    ∃ site, (Usage.call site).OccursIn files q ∧ site.location = l ∧ site.name = name ∧
      site.IsOn (ofFiles files skipped).types owner := by
  rw [memberCalls_eq_filter] at h
  obtain ⟨site, hsite, heq⟩ := List.mem_map.1 h
  obtain ⟨hnamed, hmember⟩ := List.mem_filter.1 hsite
  obtain ⟨hcall, hname⟩ := List.mem_filter.1 hnamed
  cases heq
  exact ⟨site, mem_calls_iff.1 hcall, rfl, of_decide_eq_true hname, isOn_of_isMemberCall hmember⟩

/-- Direct users name the field, and do not have the name of an accessor. -/
theorem occursIn_of_mem_directUses {start name : String} {f : FieldDecl} {q : MethodId}
    {l : Location} (hf : (ofFiles files skipped).types.fieldOn start name = some f)
    (h : ⟨some q, l⟩ ∈ (ofFiles files skipped).directUses ⟨start, name⟩) :
    (Usage.field f.ref ⟨some q, l⟩).OccursIn files q ∧
      ∀ xs, (ofFiles files skipped).accessors ⟨start, name⟩ = some xs → ∀ x ∈ xs,
        q.name = x.name → q.owner ≠ x.owner ∧ q.owner ≠ f.declaringType := by
  unfold directUses at h
  rw [hf] at h
  obtain ⟨hrefs, hother⟩ := List.mem_filter.1 h
  constructor
  · have hagain : (ofFiles files skipped).types.fieldOn f.ref.declaringType f.ref.name = some f :=
      (wellNamed_ofFiles files skipped).fieldOn_ref hf
    unfold fieldReferences at hrefs
    rw [hagain] at hrefs
    exact mem_fieldUses_iff.1 hrefs
  · rintro xs hxs x hx hname
    obtain ⟨_, hfield, rfl⟩ := Option.map_eq_some_iff.1 hxs
    cases hf.symm.trans hfield
    have hnames : x.owner = start ∧
        x.name ∈ [Accessor.getterName f name, Accessor.setterName name] := by
      obtain rfl | hx := List.mem_cons.1 hx
      · exact ⟨rfl, List.mem_cons_self⟩
      · rw [List.mem_singleton.1 hx]
        exact ⟨rfl, List.mem_cons_of_mem _ List.mem_cons_self⟩
    rw [← hname] at hnames
    simp only [Option.any_some, Bool.not_eq_true', Bool.and_eq_false_iff, List.contains_eq_mem,
      decide_eq_false_iff_not] at hother
    have howners := hother.resolve_right (fun hno => hno hnames.2)
    rw [List.mem_cons, List.mem_singleton, not_or] at howners
    rw [hnames.1]
    exact howners

end Index

/-! ### What nodes stand for -/

section kinds

variable (idx : Index) (s : Settings)

/-- The node is one that the step is shown by. -/
def Step.ShownBy (n : CallNode) : Step → Prop
  | .root => n.category = .root
  | .mapping c _ => n = Task.mappingNode c.site
  | .accessor x => n = x.toNode ∧ (x.category = .accessorGet ∨ x.category = .accessorSet)
  | .method m => ∃ l, n = idx.methodNode s m l

/-- The growth is expanded in the given step, and its node shows that. -/
def Growth.Shows (x : Growth) (step : Step) : Prop :=
  step.ShownBy idx s x.node ∧ ∃ t, x.task? = some t ∧ t.step = step

/-- The growth is that of a method at a place. It is expanded as such, unless it is an entry
point. -/
structure Growth.ShowsMethod (x : Growth) (m : MethodId) (l : Option Location) : Prop where
  node_eq : x.node = idx.methodNode s m l
  step_eq : ∀ t, x.task? = some t → t.step = .method m

variable {idx s} {kid : Growth} {t : Task}

theorem Growth.showsMethod {m : MethodId} {l : Option Location}
    (h : kid.child = t.methodChild (idx.methodNode s m l) m) : kid.ShowsMethod idx s m l := by
  have hnode : kid.node = idx.methodNode s m l :=
    (congrArg Prod.fst h).trans (t.fst_methodChild _ m)
  refine ⟨hnode, fun t' ht' => ?_⟩
  have htask : (t.methodChild (idx.methodNode s m l) m).2 = some t' := h ▸ ht'
  exact (Task.context_methodChild htask).2

theorem Growth.shows_accessor {f context : FieldRef} {xs : List Accessor} {x : Accessor}
    (hxs : idx.accessors f = some xs) (hx : x ∈ xs)
    (h : t.accessorChild? context x = some kid.child) : kid.Shows idx s (.accessor x) := by
  obtain ⟨-, hchild⟩ := Task.accessorChild?_eq_some h
  exact ⟨⟨congrArg Prod.fst hchild, Index.category_of_mem_accessors hxs hx⟩, _,
    congrArg Prod.snd hchild, rfl⟩

theorem Growth.shows_mapping {c : Crossing} {showDeclaring : Bool}
    (h : t.mappingChild? showDeclaring c = some kid.child) :
    kid.Shows idx s (.mapping c showDeclaring) := by
  obtain ⟨-, hchild⟩ := Task.mappingChild?_eq_some h
  exact ⟨congrArg Prod.fst hchild, _, congrArg Prod.snd hchild, rfl⟩

/-- A child that is expanded shows what it is expanded as. -/
theorem Task.Gives.shows (h : t.Gives idx s kid.child) {t' : Task} (ht' : kid.task? = some t') :
    kid.Shows idx s t'.step := by
  have hmethod : ∀ {m l}, kid.ShowsMethod idx s m l → kid.Shows idx s t'.step := by
    intro m l hkid
    refine ⟨?_, t', ht', rfl⟩
    rw [hkid.step_eq t' ht']
    exact ⟨l, hkid.node_eq⟩
  have hstep : ∀ {step}, kid.Shows idx s step → kid.Shows idx s t'.step := by
    rintro step ⟨hnode, t₀, ht₀, rfl⟩
    cases ht₀.symm.trans ht'
    exact ⟨hnode, t', ht', rfl⟩
  generalize hchild : kid.child = child at h
  cases h with
  | caller => exact hmethod (Growth.showsMethod hchild)
  | declaring => exact hmethod (Growth.showsMethod hchild)
  | ownAccessor _ hxs hx h => exact hstep (Growth.shows_accessor hxs hx (hchild ▸ h))
  | farAccessor _ hxs hx h => exact hstep (Growth.shows_accessor hxs hx (hchild ▸ h))
  | mapping _ _ h => exact hstep (Growth.shows_mapping (hchild ▸ h))

end kinds

/-! ### Edges -/

/-- What it means that a node, which has `depth` nodes above it, has a child. -/
inductive Edge (files : List SourceFile) (idx : Index) (s : Settings) (seed : FieldRef)
    (depth : Nat) (t : Task) (kid : Growth) : Prop where
  | caller {m x q : MethodId} {l : Location} {u : Usage} (hstep : t.step = .method m)
    (hkid : kid.ShowsMethod idx s q (some l)) (houtside : ¬ idx.Exchanges s m q)
    (hx : idx.Exchanges s m x) (hu : u.OccursIn files q) (hrefers : u.RefersTo x l)
  | accessorCall {x : Accessor} {q : MethodId} {site : CallSite} (hstep : t.step = .accessor x)
    (hkid : kid.ShowsMethod idx s q (some site.location)) (hu : (Usage.call site).OccursIn files q)
    (hname : site.name = x.name) (hon : site.IsOn idx.types x.owner)
  | accessorUse {x : Accessor} {m q : MethodId} {l : Location} {u : Usage}
    (hstep : t.step = .accessor x) (hdeclared : x.declared = some m)
    (hkid : kid.ShowsMethod idx s q (some l)) (hu : u.OccursIn files q) (hrefers : u.RefersTo m l)
  | fieldUse {start : String} {f : FieldDecl} {q : MethodId} {l : Location}
    (hstep : t.step = .root) (hstart : idx.resolveType seed.declaringType = some start)
    (hf : idx.types.fieldOn start seed.name = some f) (hkid : kid.ShowsMethod idx s q (some l))
    (hu : (Usage.field f.ref ⟨some q, l⟩).OccursIn files q)
    (hother : ∀ xs, idx.accessors ⟨start, seed.name⟩ = some xs → ∀ x ∈ xs,
      q.name = x.name → q.owner ≠ x.owner ∧ q.owner ≠ f.declaringType)
  | ownAccessor {start : String} {xs : List Accessor} {x : Accessor} (hstep : t.step = .root)
    (hstart : idx.resolveType seed.declaringType = some start)
    (hxs : idx.accessors ⟨start, seed.name⟩ = some xs) (hx : x ∈ xs)
    (hkid : kid.Shows idx s (.accessor x))
  | declaring {c : Crossing} {l : Option Location} (hstep : t.step = .mapping c true)
    (hc : c ∈ idx.crossings t.context.declaringType seed.name none) (hdepth : depth = 1)
    (hkid : kid.ShowsMethod idx s c.site.declaring l)
  | farAccessor {c : Crossing} {showDeclaring : Bool} {xs : List Accessor} {x : Accessor}
    (hstep : t.step = .mapping c showDeclaring)
    (hc : c ∈ idx.crossings t.context.declaringType seed.name none)
    (hxs : idx.accessors c.continueAt = some xs) (hx : x ∈ xs)
    (hkid : kid.Shows idx s (.accessor x))
  | mapping {within : Option MethodId} {c : Crossing}
    (hwithin : t.step = .root ∧ within = none ∨ ∃ m, t.step = .method m ∧ within = some m)
    (hc : c ∈ idx.crossings t.context.declaringType seed.name within)
    (hkid : kid.Shows idx s (.mapping c (decide (depth = 0))))

namespace Task

/-- The context is the seed's field, with its type as the index has it. -/
def AtSeed (idx : Index) (seed : FieldRef) (t : Task) : Prop :=
  ∃ start f, idx.resolveType seed.declaringType = some start ∧
    idx.types.fieldOn start seed.name = some f ∧ t.context = ⟨start, seed.name⟩

variable {files : List SourceFile} {skipped : List String} {s : Settings} {seed : FieldRef}
  {depth : Nat} {t : Task} {kid : Growth}

/-- What it means that the limits let a caller through depends on what it calls. -/
theorem edge_of_mem_uses {q : MethodId} {l : Location}
    (hroot : t.step = .root → t.AtSeed (Index.ofFiles files skipped) seed)
    (hkid : kid.ShowsMethod (Index.ofFiles files skipped) s q (some l))
    (h : ⟨some q, l⟩ ∈ t.uses (Index.ofFiles files skipped) s) :
    Edge files (Index.ofFiles files skipped) s seed depth t kid := by
  unfold uses at h
  cases hstep : t.step with
  | root =>
    obtain ⟨start, f, hstart, hf, hcontext⟩ := hroot hstep
    rw [hstep, hcontext] at h
    obtain ⟨hu, hother⟩ := Index.occursIn_of_mem_directUses hf h
    exact .fieldUse hstep hstart hf hkid hu hother
  | mapping c showDeclaring =>
    rw [hstep] at h
    cases h
  | accessor x =>
    rw [hstep] at h
    obtain hcall | ⟨m, hdeclared, hm⟩ := Index.mem_accessorUses_iff.1 h
    · obtain ⟨site, hu, rfl, hname, hon⟩ := Index.exists_call_of_mem_memberCalls hcall
      exact .accessorCall hstep hkid hu hname hon
    · obtain ⟨u, hu, hrefers⟩ := Index.mem_usesOf_iff.1 hm
      exact .accessorUse hstep hdeclared hkid hu hrefers
  | method m =>
    rw [hstep] at h
    obtain ⟨houtside, x, hx, u, hu, hrefers⟩ := Index.mem_usesThroughDispatch_iff.1 h
    exact .caller hstep hkid houtside hx hu hrefers

/-- A node that is traced has only such edges. -/
theorem Gives.edge {origin : String} (h : t.Gives (Index.ofFiles files skipped) s kid.child)
    (ht : t.Traced (Index.ofFiles files skipped) seed.name origin)
    (hfirst : t.step = .root ↔ depth = 0)
    (hroot : t.step = .root → t.AtSeed (Index.ofFiles files skipped) seed)
    (hshow : ∀ c showDeclaring, t.step = .mapping c showDeclaring →
      (showDeclaring = true ↔ depth = 1)) :
    Edge files (Index.ofFiles files skipped) s seed depth t kid := by
  generalize hchild : kid.child = child at h
  cases h with
  | caller h =>
    exact edge_of_mem_uses hroot (Growth.showsMethod hchild) (CallerGroups.mem_of_mem_collect h)
  | @declaring c hstep =>
    exact .declaring hstep (ht.crossing _ _ hstep) ((hshow c true hstep).1 rfl)
      (Growth.showsMethod hchild)
  | ownAccessor hstep hxs hx h =>
    obtain ⟨start, f, hstart, -, hcontext⟩ := hroot hstep
    exact .ownAccessor hstep hstart (hcontext ▸ hxs) hx (Growth.shows_accessor hxs hx (hchild ▸ h))
  | farAccessor hstep hxs hx h =>
    exact .farAccessor hstep (ht.crossing _ _ hstep) hxs hx
      (Growth.shows_accessor hxs hx (hchild ▸ h))
  | mapping hwithin hc h =>
    rw [ht.name_eq] at hc
    have hdepth : decide (t.step = .root) = decide (depth = 0) := decide_eq_decide.2 hfirst
    rw [hdepth] at h
    exact .mapping hwithin hc (Growth.shows_mapping (hchild ▸ h))

end Task

namespace Growth

variable {a : IndexAccess} {s : Settings} {seed : FieldRef} {g : Growth}

/-- A node that is expanded shows what it is expanded as. -/
theorem Grown.shows {remaining : Nat} (hg : g.Grown a s remaining)
    (hroot : g.child = rootChild a.index seed) {above : List Growth} {x : Growth}
    (h : g.At above x) {t : Task} (ht : x.task? = some t) : x.Shows a.index s t.step := by
  cases h with
  | here =>
    have hstep := (rootChild_task a.index seed t (hroot ▸ ht)).2
    have hnode : g.node = (rootChild a.index seed).1 := congrArg Prod.fst hroot
    refine ⟨?_, t, ht, rfl⟩
    rw [hstep, hnode]
    exact category_rootChild a.index seed
  | under hx hkid =>
    obtain ⟨_, hgrown⟩ := hg.at hx
    obtain ⟨n, t₀, kids, rfl, hgives⟩ := hgrown.gives hkid
    exact hgives.shows ht

/-- The task of the root has the seed for its context. -/
theorem Grown.atSeed {remaining : Nat} (hg : g.Grown a s remaining)
    (hroot : g.child = rootChild a.index seed) {above : List Growth} {x : Growth}
    (h : g.At above x) {t : Task} (ht : x.task? = some t) (hstep : t.step = .root) :
    t.AtSeed a.index seed := by
  obtain rfl := (hg.step_eq hroot h t ht).1.1 hstep
  cases h with
  | here =>
    have hchild : (rootChild a.index seed).2 = some t := hroot ▸ ht
    obtain ⟨start, f, hstart, hf, rfl⟩ := rootChild_eq_ofSeed hchild
    exact ⟨start, f, hstart, hf, rfl⟩

end Growth

/-- In every tree of a project, whatever the index fails at and whatever is remembered from earlier
analyses, each node that has children shows what it is expanded as, and each of its edges means what
it should. -/
theorem buildHierarchy_edges_justified (files : List SourceFile) (skipped : List String)
    (plan : FaultPlan) (s : Settings) (seed : FieldRef) {r r' : Run} {tree : CallTree}
    (hr : r.Faithful { index := Index.ofFiles files skipped, fails := plan } s)
    (h : (buildHierarchy { index := Index.ofFiles files skipped, fails := plan } seed).runOn r =
      (.ok tree, r')) :
    ∃ g, (growthOf { index := Index.ofFiles files skipped, fails := plan } seed).runOn r =
        (.ok g, r') ∧ g.tree = tree ∧
      ∀ above x kid, g.At above x → kid ∈ x.kids → ∃ t, x.task? = some t ∧
        x.Shows (Index.ofFiles files skipped) s t.step ∧
        Edge files (Index.ofFiles files skipped) s seed above.length t kid := by
  obtain ⟨g, hgrowth, rfl⟩ := growthOf_of_buildHierarchy h
  obtain ⟨hg, hroot⟩ := growthOf_grown _ seed hr g r' hgrowth
  refine ⟨g, hgrowth, rfl, fun above x kid hat hkid => ?_⟩
  obtain ⟨_, hgrown⟩ := hg.at hat
  obtain ⟨n, t, kids, rfl, hgives⟩ := hgrown.gives hkid
  obtain ⟨_, _, -, -, htraced⟩ := hg.traced hroot hat t rfl
  obtain ⟨hfirst, hshow⟩ := hg.step_eq hroot hat t rfl
  exact ⟨t, rfl, hg.shows hroot hat rfl, hgives.edge htraced
    (hfirst.trans List.length_eq_zero_iff.symm) (hg.atSeed hroot hat rfl) hshow⟩

namespace Counter

open Syntax

/-- A class with a field and a method that uses it, to which a second method is added in the third
line. -/
def fileWith (second : String) (tree : Tree) : SourceFile where
  path := "Counter.java"
  bytes := (["class Counter \x7b int count;\n", "void next() \x7b count++; \x7d\n",
    second].flatMap (fun l => l.toUTF8.data.toList)).toArray
  tree := .node (.other "program") .none 0 79 [
    .node .classDeclaration .none 0 78 [
      .node .identifier .name 6 13 [],
      .node (.other "class_body") .body 14 78 [
        .node .fieldDeclaration .none 16 26 [
          .node (.other "integral_type") .type 16 19 [],
          .node .variableDeclarator .declarator 20 25 [.node .identifier .name 20 25 []]],
        .node .methodDeclaration .none 27 51 [
          .node (.other "void_type") .type 27 31 [],
          .node .identifier .name 32 36 [],
          .node (.other "formal_parameters") .parameters 36 38 [],
          .node (.other "block") .body 39 51 [
            .node (.other "expression_statement") .none 41 49 [
              .node (.other "update_expression") .none 41 48 [
                .node .identifier .none 41 46 []]]]],
        tree]]]

/-- The second method calls the first one. -/
def file : SourceFile :=
  fileWith "void twice() \x7b next(); \x7d \x7d\n" <|
    .node .methodDeclaration .none 52 76 [
      .node (.other "void_type") .type 52 56 [],
      .node .identifier .name 57 62 [],
      .node (.other "formal_parameters") .parameters 62 64 [],
      .node (.other "block") .body 65 76 [
        .node (.other "expression_statement") .none 67 74 [
          .node .methodInvocation .none 67 73 [
            .node .identifier .name 67 71 [],
            .node (.other "argument_list") .arguments 71 73 []]]]]

def seed : FieldRef := ⟨"Counter", "count"⟩

def next : MethodId := ⟨"Counter", "next", []⟩

def twice : MethodId := ⟨"Counter", "twice", []⟩

end Counter

set_option maxRecDepth 100000 in
/-- The caller below `next` mentions it, or a method exchanged with it, in the third line. -/
theorem buildHierarchy_edges_justified_counter :
    ∃ (g : Growth) (r' : Run),
      (buildHierarchy { index := Index.ofFiles [Counter.file] [] } Counter.seed).runOn {} =
        (.ok g.tree, r') ∧
      ∃ x ∈ g.kids, ∃ kid ∈ x.kids, x.node.key = Counter.next ∧ kid.node.key = Counter.twice ∧
        ∃ m u, (Index.ofFiles [Counter.file] []).Exchanges {} Counter.next m ∧
          Usage.OccursIn [Counter.file] Counter.twice u ∧ u.RefersTo m ⟨"Counter.java", 3⟩ := by
  obtain ⟨tree, r', hrun⟩ := buildHierarchy_exists_ok_of_answers
    (a := { index := Index.ofFiles [Counter.file] [] }) (fun _ _ => rfl) (r := {})
    Token.quiet_default Counter.seed
  obtain ⟨g, hgrowth, rfl, hedges⟩ := buildHierarchy_edges_justified [Counter.file] []
    (fun _ _ => none) {} Counter.seed ⟨rfl, Run.sound_of_empty rfl⟩ hrun
  have hfacts : ((growthOf { index := Index.ofFiles [Counter.file] [] } Counter.seed).runOn
      {}).1.toOption.any (fun g => g.kids.any (fun x =>
        decide (x.node.key = Counter.next ∧ x.task?.map Task.step = some (.method Counter.next)) &&
          x.kids.any (fun kid => decide (kid.node.key = Counter.twice ∧
            kid.node.location = some ⟨"Counter.java", 3⟩ ∧
              kid.task?.map Task.step = some (.method Counter.twice))))) = true := by
    decide +kernel
  rw [hgrowth] at hfacts
  obtain ⟨x, hx, hfacts⟩ := List.any_eq_true.1 hfacts
  obtain ⟨hx', hfacts⟩ := Bool.and_eq_true_iff.1 hfacts
  obtain ⟨hnext, hstep⟩ := of_decide_eq_true hx'
  obtain ⟨kid, hkid, hfacts⟩ := List.any_eq_true.1 hfacts
  obtain ⟨htwice, hplace, htask⟩ := of_decide_eq_true hfacts
  obtain ⟨t, ht, -, hedge⟩ := hedges [g] x kid (.under .here hx) hkid
  rw [ht] at hstep
  have hstep : t.step = .method Counter.next := Option.some.inj hstep
  refine ⟨g, r', hrun, x, hx, kid, hkid, hnext, htwice, ?_⟩
  cases hedge with
  | @caller _ m q l u hstep' hkid' houtside hm hu hrefers =>
    cases hstep.symm.trans hstep'
    rw [hkid'.node_eq] at htwice hplace
    obtain rfl : q = Counter.twice := htwice
    cases hplace
    exact ⟨m, u, hm, hu, hrefers⟩
  | accessorCall h | accessorUse h | declaring h | farAccessor h => cases hstep.symm.trans h
  | fieldUse h | ownAccessor h => cases hstep.symm.trans h
  | mapping _ _ hshows =>
    obtain ⟨-, t', ht', hstep'⟩ := hshows
    rw [ht'] at htask
    cases hstep'.symm.trans (Option.some.inj htask)

end FieldTrace
