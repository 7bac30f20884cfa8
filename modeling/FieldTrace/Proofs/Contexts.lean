import FieldTrace.Proofs.Children
import FieldTrace.Proofs.Relations
import FieldTrace.Proofs.Walks

/-! # Trees and relations agree

Every node of a tree is expanded in the context of a type that crossings lead to from the seed's
type, and of the seed's name (`Task.Traced`). So the sites at the mapping nodes of a tree, however
deep, are among those that the resolution of relations comes across, though it searches in another
order and never looks at callers. -/

namespace FieldTrace

/-! ### What nodes stand for -/

namespace CategoryRule

/-- What all rules of a table give, and what a method has that matches none, every method has. -/
theorem classify_of_forall {P : Category → Prop} {rules : List CategoryRule}
    (hrules : ∀ r ∈ rules, P r.category) (hplain : P .plain) (m : MethodTraits) :
    P (classify rules m) := by
  unfold classify first?
  cases hfind : rules.find? (fun r => r.matchesMethod m) with
  | none => exact hplain
  | some r => exact hrules r (List.mem_of_find?_eq_some hfind)

/-- Entry patterns add rules for entry points only. -/
theorem category_of_mem_withEntryPatterns {rules : List CategoryRule} {patterns : List String}
    {r : CategoryRule} (h : r ∈ withEntryPatterns rules patterns) :
    r ∈ rules ∨ r.category = .entryPoint := by
  obtain h | h := List.mem_append.1 h
  · obtain h | h := List.mem_append.1 h
    · exact .inl ((List.takeWhile_prefix _).mem h)
    · obtain ⟨p, -, rfl⟩ := List.mem_map.1 h
      exact .inr rfl
  · exact .inl ((List.dropWhile_suffix _).mem h)

/-- What the standard table never gives, no method has, whatever the further entry points. -/
theorem classify_ne {c : Category} (hstandard : ∀ r ∈ standard, r.category ≠ c)
    (hentry : .entryPoint ≠ c) (hplain : .plain ≠ c) (patterns : List String) (m : MethodTraits) :
    classify (withEntryPatterns standard patterns) m ≠ c := by
  refine classify_of_forall (P := fun c' => c' ≠ c) (fun r hr => ?_) hplain m
  obtain hr | hr := category_of_mem_withEntryPatterns hr
  · exact hstandard r hr
  · rw [hr]
    exact hentry

end CategoryRule

theorem Task.fst_methodChild (t : Task) (n : CallNode) (m : MethodId) :
    (t.methodChild n m).1 = n := by
  unfold methodChild
  split <;> rfl

/-- A method child that is expanded keeps the context. -/
theorem Task.context_methodChild {t t' : Task} {n : CallNode} {m : MethodId}
    (h : (t.methodChild n m).2 = some t') : t'.context = t.context ∧ t'.step = .method m := by
  unfold methodChild at h
  split at h
  · cases h
  · cases h
    exact ⟨rfl, rfl⟩

/-- No method is taken for a mapping site or for a root. -/
theorem Index.category_methodNode (idx : Index) (s : Settings) (m : MethodId)
    (l : Option Location) :
    (idx.methodNode s m l).category ≠ .mapping ∧ (idx.methodNode s m l).category ≠ .root := by
  dsimp only [methodNode]
  exact ⟨CategoryRule.classify_ne (by decide) (by decide) (by decide) _ _,
    CategoryRule.classify_ne (by decide) (by decide) (by decide) _ _⟩

theorem Index.category_of_mem_accessors {idx : Index} {f : FieldRef} {xs : List Accessor}
    {x : Accessor} (h : idx.accessors f = some xs) (hx : x ∈ xs) :
    x.category = .accessorGet ∨ x.category = .accessorSet := by
  obtain ⟨field, -, rfl⟩ := Option.map_eq_some_iff.1 h
  obtain rfl | hx := List.mem_cons.1 hx
  · exact .inl rfl
  · rw [List.mem_singleton.1 hx]
    exact .inr rfl

/-- A mapping node stands for a crossing of the field in the node's context. -/
theorem Task.Gives.exists_crossing {idx : Index} {s : Settings} {t : Task} {child : Child}
    (h : t.Gives idx s child) (hchild : child.1.category = .mapping) :
    ∃ c ∈ idx.crossings t.context.declaringType t.context.name none,
      child.1 = mappingNode c.site := by
  have haccessor : ∀ {f xs x context}, idx.accessors f = some xs → x ∈ xs →
      t.accessorChild? context x = some child → False := by
    intro f xs x context hxs hx h
    obtain ⟨-, rfl⟩ := accessorChild?_eq_some h
    obtain hget | hset := Index.category_of_mem_accessors hxs hx
    · cases hget.symm.trans hchild
    · cases hset.symm.trans hchild
  cases h with
  | @caller m l =>
    rw [fst_methodChild] at hchild
    exact absurd hchild (idx.category_methodNode s m (some l)).1
  | @declaring c =>
    rw [fst_methodChild] at hchild
    exact absurd hchild (idx.category_methodNode s c.site.declaring _).1
  | ownAccessor hstep hxs hx h => exact (haccessor hxs hx h).elim
  | farAccessor hstep hxs hx h => exact (haccessor hxs hx h).elim
  | mapping hwithin hc h =>
    obtain ⟨-, rfl⟩ := mappingChild?_eq_some h
    exact ⟨_, Index.crossings_subset _ _ _ hc, rfl⟩

/-! ### Contexts -/

/-- The context of the task is the traced name and a type that crossings lead to; if the task is
that of a mapping node, its crossing starts from there. -/
structure Task.Traced (idx : Index) (field start : String) (t : Task) : Prop where
  name_eq : t.context.name = field
  reaches : idx.Reaches field start t.context.declaringType
  crossing : ∀ c showDeclaring, t.step = .mapping c showDeclaring →
    c ∈ idx.crossings t.context.declaringType field none

/-- What is traced stays traced from a node to its children. -/
theorem Task.Gives.traced {idx : Index} {s : Settings} {field start : String} {t t' : Task}
    {child : Child} (h : t.Gives idx s child) (ht : t.Traced idx field start)
    (ht' : child.2 = some t') : t'.Traced idx field start := by
  have hmethod : ∀ n m, (t.methodChild n m).2 = some t' → t'.Traced idx field start := by
    intro n m hn
    obtain ⟨hcontext, hstep⟩ := context_methodChild hn
    exact {
      name_eq := hcontext ▸ ht.name_eq
      reaches := hcontext ▸ ht.reaches
      crossing := by simp [hstep] }
  cases h with
  | caller => exact hmethod _ _ ht'
  | declaring => exact hmethod _ _ ht'
  | ownAccessor hstep hxs hx h =>
    obtain ⟨-, rfl⟩ := accessorChild?_eq_some h
    cases ht'
    exact ⟨ht.name_eq, ht.reaches, by simp⟩
  | farAccessor hstep hxs hx h =>
    obtain ⟨-, rfl⟩ := accessorChild?_eq_some h
    cases ht'
    exact ⟨ht.name_eq, ht.reaches.step (ht.crossing _ _ hstep), by simp⟩
  | mapping hwithin hc h =>
    obtain ⟨-, rfl⟩ := mappingChild?_eq_some h
    cases ht'
    refine ⟨ht.name_eq, ht.reaches, ?_⟩
    rintro _ _ ⟨⟩
    rw [ht.name_eq] at hc
    exact Index.crossings_subset _ _ _ hc

/-- The root is expanded in the context of the seed, provided that the seed is declared. -/
theorem rootChild_eq_ofSeed {idx : Index} {seed : FieldRef} {t : Task}
    (h : (rootChild idx seed).2 = some t) :
    ∃ type f, idx.resolveType seed.declaringType = some type ∧
      idx.types.fieldOn type seed.name = some f ∧ t = Task.ofSeed type seed := by
  unfold rootChild at h
  cases hresolve : (idx.resolveType seed.declaringType).filter (fun t => t ≠ "") with
  | none =>
    rw [hresolve] at h
    cases h
  | some type =>
    simp only [hresolve] at h
    cases hfield : idx.types.fieldOn type seed.name with
    | none =>
      rw [hfield] at h
      cases h
    | some f =>
      rw [hfield] at h
      cases h
      exact ⟨type, f, (Option.filter_eq_some_iff.1 hresolve).1, hfield, rfl⟩

theorem category_rootChild (idx : Index) (seed : FieldRef) :
    (rootChild idx seed).1.category = .root := by
  unfold rootChild
  cases (idx.resolveType seed.declaringType).filter (fun t => t ≠ "") with
  | none => rfl
  | some type =>
    dsimp only
    cases idx.types.fieldOn type seed.name <;> rfl

namespace Growth

variable {a : IndexAccess} {s : Settings} {seed : FieldRef} {g : Growth}

/-- Every node of a growth is expanded in a traced context. -/
theorem Grown.traced {remaining : Nat} (hg : g.Grown a s remaining)
    (hroot : g.child = rootChild a.index seed) {above : List Growth} {x : Growth}
    (h : g.At above x) : ∀ t, x.task? = some t →
      ∃ start f, a.index.resolveType seed.declaringType = some start ∧
        a.index.types.fieldOn start seed.name = some f ∧ t.Traced a.index seed.name start := by
  induction h with
  | here =>
    intro t ht
    have hchild : (rootChild a.index seed).2 = some t := hroot ▸ ht
    obtain ⟨start, f, hstart, hf, rfl⟩ := rootChild_eq_ofSeed hchild
    exact ⟨start, f, hstart, hf, rfl, .refl, by rintro _ _ ⟨⟩⟩
  | under hx hkid ih =>
    intro t ht
    obtain ⟨_, hgrown⟩ := hg.at hx
    obtain ⟨n, t₀, kids, rfl, hgives⟩ := hgrown.gives hkid
    obtain ⟨start, f, hstart, hf, htraced⟩ := ih t₀ rfl
    exact ⟨start, f, hstart, hf, hgives.traced htraced ht⟩

/-! ### Nodes and positions -/

theorem label_tree (x : Growth) : x.tree.label = x.node := by
  cases x <;> rfl

mutual

/-- A subtree of a tree is the tree at some position of its growth. -/
theorem exists_at_of_mem_subtrees {t : CallTree} : ∀ {x : Growth} {above : List Growth},
    g.At above x → t ∈ x.tree.subtrees → ∃ above' y, g.At above' y ∧ y.tree = t
  | .terminal m, above, h, ht => by
    rw [tree, Rose.leaf, Rose.subtrees_node] at ht
    exact ⟨above, .terminal m, h, (List.mem_singleton.1 ht).symm⟩
  | .last m _, above, h, ht => by
    rw [tree, Rose.leaf, Rose.subtrees_node] at ht
    exact ⟨above, .last m _, h, (List.mem_singleton.1 ht).symm⟩
  | .failed m _, above, h, ht => by
    rw [tree, Rose.leaf, Rose.subtrees_node] at ht
    exact ⟨above, .failed m _, h, (List.mem_singleton.1 ht).symm⟩
  | .grown m task kids, above, h, ht => by
    rw [tree, Rose.subtrees_node] at ht
    obtain rfl | ht := List.mem_cons.1 ht
    · exact ⟨above, .grown m task kids, h, rfl⟩
    · exact exists_at_of_mem_forest kids (fun kid hkid => ⟨_, h.under hkid⟩) ht

theorem exists_at_of_mem_forest {t : CallTree} : ∀ gs : List Growth,
    (∀ x ∈ gs, ∃ above, g.At above x) → t ∈ (forest gs).flatMap Rose.subtrees →
      ∃ above' y, g.At above' y ∧ y.tree = t
  | [], _, ht => by
    rw [forest] at ht
    cases ht
  | x :: gs, h, ht => by
    rw [forest, List.flatMap_cons, List.mem_append] at ht
    obtain ht | ht := ht
    · obtain ⟨above, hx⟩ := h x List.mem_cons_self
      exact exists_at_of_mem_subtrees hx ht
    · exact exists_at_of_mem_forest gs (fun y hy => h y (List.mem_cons_of_mem _ hy)) ht

end

/-- A node of a tree is the node at some position of its growth. -/
theorem exists_at_of_mem_nodes {n : CallNode} {x : Growth} {above : List Growth}
    (h : g.At above x) (hn : n ∈ CallTree.nodes x.tree) :
    ∃ above' y, g.At above' y ∧ y.node = n := by
  obtain ⟨t, ht, rfl⟩ := List.mem_map.1 hn
  obtain ⟨above', y, hy, rfl⟩ := exists_at_of_mem_subtrees h ht
  exact ⟨above', y, hy, (label_tree y).symm⟩

/-- Each mapping node of a tree stands for a crossing of a type that can be reached. -/
theorem Grown.exists_crossing {remaining : Nat} (hg : g.Grown a s remaining)
    (hroot : g.child = rootChild a.index seed) {n : CallNode} (hn : n ∈ CallTree.nodes g.tree)
    (hcategory : n.category = .mapping) :
    ∃ start f type c, a.index.resolveType seed.declaringType = some start ∧
      a.index.types.fieldOn start seed.name = some f ∧ a.index.Reaches seed.name start type ∧
      c ∈ a.index.crossings type seed.name none ∧ n = Task.mappingNode c.site := by
  obtain ⟨above, x, hat, rfl⟩ := exists_at_of_mem_nodes .here hn
  cases hat with
  | here =>
    -- the root stands for the field
    have hnode : g.node = (rootChild a.index seed).1 := congrArg Prod.fst hroot
    rw [hnode, category_rootChild] at hcategory
    cases hcategory
  | under hx hkid =>
    obtain ⟨_, hgrown⟩ := hg.at hx
    obtain ⟨m, t, kids, rfl, hgives⟩ := hgrown.gives hkid
    obtain ⟨start, f, hstart, hf, htraced⟩ := hg.traced hroot hx t rfl
    obtain ⟨c, hc, hnode⟩ := hgives.exists_crossing hcategory
    rw [htraced.name_eq] at hc
    exact ⟨start, f, _, c, hstart, hf, htraced.reaches, hc, hnode⟩

end Growth

/-! ### The resolution without faults -/

/-- Without faults the visits find all crossings, so that all types that can be reached are
visited. -/
theorem Resolution.Ends.closes {a : IndexAccess} {seed : FieldRef} {r r' : Run} {res : Resolution}
    {start : String} {f : FieldDecl} (h : Ends a.faultless seed r r' res)
    (hr : r.Sound a.faultless) (hstart : a.index.resolveType seed.declaringType = some start)
    (hf : a.index.types.fieldOn start seed.name = some f) :
    ∃ visits, Visits a.faultless seed.name { r with indexCalls := r.indexCalls + 1 + 1 } visits r' ∧
      Closes (fun t => a.index.crossings t seed.name none) start (visits.map Visit.type) res := by
  cases h with
  | undeclared h =>
    have hnone := h start hstart
    cases hf.symm.trans hnone
  | @visited type f' visits _ htype hfield hvisits hcloses =>
    cases htype.symm.trans hstart
    refine ⟨visits, hvisits, hcloses.congr (fun t ht c => ?_)⟩
    have hexpected : Crossings.expected a.faultless r.settings seed.name t =
        a.index.crossings t seed.name none := by
      rw [Crossings.expected, (Crossings.of_answers t seed.name none).outcome_eq]
      rfl
    rw [← hexpected]
    exact hvisits.mem_crossings_iff a.faultless_steady hr ht

/-! ### The agreement -/

/-- For every index, seed, settings and token: where nothing fails and nobody cancels, there are a
tree and a resolution. Each mapping node of the tree is that of a site which contributes to the
resolution, and the resolution has a relation between the types of that site. Every node is expanded
in the context of the seed's name and of a type that the resolution visits. The tree may even be one
over a failing index, and may have other settings than the resolution. -/
theorem callHierarchy_mappings_contribute (idx : Index) (plan : FaultPlan) (s s' : Settings)
    (token token' : Token) (seed : FieldRef) :
    ((∀ n call, plan n call = none) → token.Quiet → token'.Quiet → ∃ tree r res r',
      Tracer.callHierarchy { index := idx, fails := plan } s token seed = (.ok tree, r) ∧
      Tracer.start s' token' (resolveRelations { index := idx } seed) = (.ok res, r')) ∧
    ∀ tree r res r',
      Tracer.callHierarchy { index := idx, fails := plan } s token seed = (.ok tree, r) →
      Tracer.start s' token' (resolveRelations { index := idx } seed) = (.ok res, r') →
      (∀ n ∈ CallTree.nodes tree, n.category = .mapping → ∃ site ∈ res.sites,
        n.key = ⟨site.declaring.owner, "map", [site.source, site.target]⟩ ∧
        n.location = some site.location ∧ ∃ x ∈ res.relations,
          x.source.declaringType = site.source ∧ x.target.declaringType = site.target) ∧
      ∃ g, Tracer.start s token (growthOf { index := idx, fails := plan } seed) = (.ok g, r) ∧
        g.tree = tree ∧
        ∀ above x t, g.At above x → x.task? = some t → t.context.name = seed.name ∧
          ∃ visits, Resolution.Visits { index := idx } seed.name
              { settings := s', token := token', indexCalls := 2 } visits r' ∧
            t.context.declaringType ∈ visits.map Resolution.Visit.type := by
  let a : IndexAccess := { index := idx, fails := plan }
  constructor
  · intro hplan hquiet hquiet'
    obtain ⟨tree, r, htree⟩ := buildHierarchy_exists_ok_of_answers (a := a) hplan
      (r := { settings := s, token := token }) hquiet seed
    obtain ⟨res, r', hres⟩ := resolveRelations_exists_ok (a := { index := idx }) (fun _ _ => rfl)
      (r := { settings := s', token := token' }) hquiet' seed
    exact ⟨tree, r, res, r', htree, hres⟩
  · intro tree r res r' htree hres
    obtain ⟨g, hgrowth, rfl⟩ := growthOf_of_buildHierarchy htree
    obtain ⟨hg, hroot⟩ := growthOf_grown a seed (s := s) ⟨rfl, Run.sound_of_empty rfl⟩ g r hgrowth
    have hends : Resolution.Ends a.faultless seed { settings := s', token := token' } r' res :=
      Resolution.yields_resolveRelations (Run.within_of_empty rfl) seed res r' hres
    refine ⟨fun n hn hcategory => ?_, g, hgrowth, rfl, fun above x t hat ht => ?_⟩
    · obtain ⟨start, f, type, c, hstart, hf, hreach, hc, rfl⟩ :=
        hg.exists_crossing hroot hn hcategory
      obtain ⟨visits, -, hcloses⟩ := hends.closes (Run.sound_of_empty rfl) hstart hf
      have htypes := (Index.mem_crossings_iff.1 hc).relation_types
      exact ⟨c.site, (hcloses.mem_sites _).2 ⟨type, hreach, c, hc, rfl⟩, rfl, rfl, c.relation,
        (hcloses.mem_relations _).2 ⟨type, hreach, c, hc, rfl⟩, htypes⟩
    · obtain ⟨start, f, hstart, hf, htraced⟩ := hg.traced hroot hat t ht
      obtain ⟨visits, hvisits, hcloses⟩ := hends.closes (Run.sound_of_empty rfl) hstart hf
      exact ⟨htraced.name_eq, visits, hvisits, (hcloses.mem_types _).2 htraced.reaches⟩

set_option maxRecDepth 100000 in
/-- The mapping of orders is shown in the tree of an item's identity. -/
theorem callHierarchy_mappings_contribute_nesting :
    ∃ tree r res r',
      Tracer.callHierarchy { index := Index.ofFiles Nesting.files [] } {} {} Nesting.seed =
        (.ok tree, r) ∧
      Tracer.start {} {}
        (resolveRelations { index := Index.ofFiles Nesting.files [] } Nesting.seed) =
          (.ok res, r') ∧
      ∃ n ∈ CallTree.nodes tree, n.category = .mapping ∧
        ∃ site ∈ res.sites, n.location = some site.location := by
  obtain ⟨hexists, hall⟩ := callHierarchy_mappings_contribute (Index.ofFiles Nesting.files [])
    (fun _ _ => none) {} {} {} {} Nesting.seed
  obtain ⟨tree, r, res, r', htree, hres⟩ :=
    hexists (fun _ _ => rfl) Token.quiet_default Token.quiet_default
  obtain ⟨hnodes, -⟩ := hall tree r res r' htree hres
  refine ⟨tree, r, res, r', htree, hres, ?_⟩
  have hmapping : ((hierarchyByRecursion { index := Index.ofFiles Nesting.files [] }
      Nesting.seed).runOn {}).1.toOption.any (fun t =>
        t.children.any (fun c => c.label.category = .mapping)) = true := by
    decide +kernel
  have hrun : (buildHierarchy { index := Index.ofFiles Nesting.files [] } Nesting.seed).runOn {} =
    (.ok tree, r) := htree
  rw [← buildHierarchy_eq, hrun] at hmapping
  obtain ⟨kid, hkid, hcategory⟩ := List.any_eq_true.1 hmapping
  obtain ⟨root, kids⟩ := tree
  obtain ⟨n, below⟩ := kid
  have hn : n ∈ CallTree.nodes (.node root kids) := by
    rw [CallTree.nodes_node]
    refine List.mem_cons_of_mem _ (List.mem_flatMap.2 ⟨.node n below, hkid, ?_⟩)
    rw [CallTree.nodes_node]
    exact List.mem_cons_self
  have hcategory : n.category = .mapping := of_decide_eq_true hcategory
  obtain ⟨site, hsite, -, hlocation, -⟩ := hnodes n hn hcategory
  exact ⟨n, hn, hcategory, site, hsite, hlocation⟩

end FieldTrace
