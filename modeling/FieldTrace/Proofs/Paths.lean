import FieldTrace.Proofs.Recursion

/-! # Paths without repetition

A task carries the keys on the path to its node. Whichever way a child comes about, its key is not
on the path, and its own task carries the path with that key in front (`Task.Fits`). So no key comes
twice on a path from the root to a leaf. -/

namespace FieldTrace

/-! ### Paths of a tree -/

namespace Rose

variable {α : Type}

theorem walkPaths_append (first second : List (List α × Rose α)) :
    walkPaths (first ++ second) = walkPaths first ++ walkPaths second := by
  fun_induction walkPaths first with
  | case1 => rfl
  | case2 path a rest ih => rw [List.cons_append, walkPaths, ih, List.cons_append]
  | case3 path a c cs rest ih => rw [List.cons_append, walkPaths, ← ih, List.append_assoc]

/-- What leads to the trees comes first on their paths. -/
theorem walkPaths_shift (lead : List α) (pending : List (List α × Rose α)) :
    walkPaths (pending.map (fun e => (e.1 ++ lead, e.2))) =
      (walkPaths pending).map (fun p => lead.reverse ++ p) := by
  fun_induction walkPaths pending with
  | case1 => simp [walkPaths]
  | case2 path a rest ih => simp [walkPaths, ih]
  | case3 path a c cs rest ih =>
    rw [← ih, List.map_cons, walkPaths]
    simp [remark, Function.comp_def]

theorem walkPaths_remark (a : α) (ts : List (Rose α)) :
    walkPaths (remark [a] ts) = (ts.flatMap paths).map (fun p => a :: p) := by
  induction ts with
  | nil => simp [remark, walkPaths]
  | cons t ts ih =>
    have hhead : walkPaths [([a], t)] = t.paths.map (fun p => a :: p) :=
      walkPaths_shift [a] [([], t)]
    calc walkPaths (remark [a] (t :: ts))
        = walkPaths [([a], t)] ++ walkPaths (remark [a] ts) := walkPaths_append [([a], t)] _
      _ = ((t :: ts).flatMap paths).map (fun p => a :: p) := by
        rw [hhead, ih, List.flatMap_cons, List.map_append]

@[simp] theorem paths_leaf (a : α) : (node a []).paths = [[a]] := by
  simp [paths, walkPaths]

/-- A path from a node with children goes on in one of them. -/
theorem paths_node (a : α) {cs : List (Rose α)} (h : cs ≠ []) :
    (node a cs).paths = (cs.flatMap paths).map (fun p => a :: p) := by
  cases cs with
  | nil => exact absurd rfl h
  | cons c cs =>
    rw [paths, walkPaths, List.append_nil]
    exact walkPaths_remark a (c :: cs)

end Rose

/-- After the keys on `path`, innermost first, no key comes again on a path of the tree. -/
def CallTree.NoRepeats (path : List NodeKey) (t : CallTree) : Prop :=
  ∀ p ∈ t.paths, ((p.map CallNode.key).reverse ++ path).Nodup

theorem CallTree.noRepeats_node {path : List NodeKey} {n : CallNode} {kids : List CallTree}
    (hkey : (n.key :: path).Nodup)
    (hkids : ∀ kid ∈ kids, CallTree.NoRepeats (n.key :: path) kid) :
    CallTree.NoRepeats path (.node n kids) := by
  intro p hp
  by_cases h : kids = []
  · subst h
    rw [Rose.paths_leaf, List.mem_singleton] at hp
    subst hp
    simpa using hkey
  · rw [Rose.paths_node n h, List.mem_map] at hp
    obtain ⟨q, hq, rfl⟩ := hp
    obtain ⟨kid, hkid, hmem⟩ := List.mem_flatMap.1 hq
    simpa using hkids kid hkid q hmem

/-! ### Children -/

/-- How a child comes about: for a method that is not on the path, for a crossing, or for an
accessor. Mapping nodes right below the root show the declaring method. -/
inductive Task.Offers (t : Task) : Child → Prop where
  | method {n : CallNode} (h : n.key ∉ t.path) (m : MethodId) : t.Offers (t.methodChild n m)
  | mapping {c : Crossing} {child : Child}
    (h : t.mappingChild? (decide (t.step = .root)) c = some child) : t.Offers child
  | accessor {context : FieldRef} {x : Accessor} {child : Child}
    (h : t.accessorChild? context x = some child) : t.Offers child

/-- The key of the child is not on the path, and its task has it in front. -/
structure Task.Fits (t : Task) (c : Child) : Prop where
  key_notMem : c.1.key ∉ t.path
  path_eq : ∀ t', c.2 = some t' → t'.path = c.1.key :: t.path

namespace Task

variable {t : Task}

/-- The child for a crossing, if there is one. -/
theorem mappingChild?_eq_some {showDeclaring : Bool} {c : Crossing} {child : Child}
    (h : t.mappingChild? showDeclaring c = some child) :
    (mappingNode c.site).key ∉ t.path ∧
      child = (mappingNode c.site, some {
        step := .mapping c showDeclaring, path := (mappingNode c.site).key :: t.path,
        spliced := c.site :: t.spliced, context := t.context }) := by
  simp only [mappingChild?] at h
  split at h
  · cases h
  next hkey => exact ⟨by simpa using hkey, (Option.some.inj h).symm⟩

/-- The child for an accessor, if there is one. -/
theorem accessorChild?_eq_some {context : FieldRef} {x : Accessor} {child : Child}
    (h : t.accessorChild? context x = some child) :
    x.toNode.key ∉ t.path ∧ child = { t with context := context }.child x.toNode (.accessor x) := by
  simp only [accessorChild?] at h
  split at h
  · cases h
  next hkey => exact ⟨by simpa using hkey, (Option.some.inj h).symm⟩

theorem fits_methodChild {n : CallNode} (h : n.key ∉ t.path) (m : MethodId) :
    t.Fits (t.methodChild n m) := by
  unfold methodChild
  split
  · exact ⟨h, nofun⟩
  · exact ⟨h, by rintro _ ⟨⟩; rfl⟩

/-- Whatever a child is for, it fits below the node. -/
theorem Offers.fits {c : Child} (h : t.Offers c) : t.Fits c := by
  cases h with
  | method h m => exact fits_methodChild h m
  | mapping h =>
    obtain ⟨hkey, rfl⟩ := mappingChild?_eq_some h
    exact ⟨hkey, by rintro _ ⟨⟩; rfl⟩
  | accessor h =>
    obtain ⟨hkey, rfl⟩ := accessorChild?_eq_some h
    exact ⟨hkey, by rintro _ ⟨⟩; rfl⟩

theorem offers_mappingChildren {showDeclaring : Bool} (h : decide (t.step = .root) = showDeclaring)
    (crossings : List Crossing) :
    ∀ c ∈ crossings.filterMap (t.mappingChild? showDeclaring), t.Offers c := by
  intro child hchild
  obtain ⟨c, -, hc⟩ := List.mem_filterMap.1 hchild
  exact .mapping (by rw [h]; exact hc)

theorem offers_accessorChildren (context : FieldRef) (accessors : List Accessor) :
    ∀ c ∈ accessors.filterMap (t.accessorChild? context), t.Offers c := by
  intro child hchild
  obtain ⟨x, -, hx⟩ := List.mem_filterMap.1 hchild
  exact .accessor hx

end Task

namespace Expansion

variable {a : IndexAccess}

/-- Callers are shown by method nodes whose keys are not on the path. -/
theorem callersAt_methods (t : Task) (pairs : List (MethodId × Location)) :
    ∀ r, Analysis.Yields r (callersAt a t pairs) (fun cs _ =>
      ∀ c ∈ cs, ∃ n m, n.key ∉ t.path ∧ c = t.methodChild n m) := by
  induction pairs with
  | nil =>
    intro r
    exact .pure (by simp)
  | cons pair pairs ih =>
    intro r
    refine .bind .any (fun n r₁ _ => (ih r₁).bind (fun others r₂ hothers => .pure ?_))
    split
    · exact hothers
    next hkey => exact List.forall_mem_cons.2 ⟨⟨n, pair.1, by simpa using hkey, rfl⟩, hothers⟩

theorem callerChildren_methods (t : Task) (refs : List Reference) (r : Run) :
    Analysis.Yields r (callerChildren a t refs) (fun cs _ =>
      ∀ c ∈ cs, ∃ n m, n.key ∉ t.path ∧ c = t.methodChild n m) :=
  .bind .any (fun _ r₁ _ => callersAt_methods t _ r₁)

theorem callerChildren_offers (t : Task) (refs : List Reference) (r : Run) :
    Analysis.Yields r (callerChildren a t refs) (fun cs _ => ∀ c ∈ cs, t.Offers c) := by
  refine (callerChildren_methods t refs r).mono (fun cs _ h c hc => ?_)
  obtain ⟨n, m, hkey, rfl⟩ := h c hc
  exact .method hkey m

theorem root_offers {t : Task} (ht : t.step = .root) (r : Run) :
    Analysis.Yields r (root a t) (fun cs _ => ∀ c ∈ cs, t.Offers c) := by
  refine .bind .any (fun crossings _ _ => .bind .any (fun run _ _ => .bind .any
    (fun accessors _ _ => .bind .any (fun decl _ _ => .bind .any (fun users _ _ => ?_)))))
  have hroot : decide (t.step = .root) = true := decide_eq_true ht
  have hfound := List.forall_mem_append.2 ⟨Task.offers_mappingChildren hroot
    (limitCrossings run.settings.mappingSiteLimit crossings),
    Task.offers_accessorChildren t.context accessors⟩
  cases users with
  | none => exact .pure hfound
  | some users =>
    exact .bind (callerChildren_offers t _ _) (fun callers _ hcallers =>
      .pure (List.forall_mem_append.2 ⟨hfound, hcallers⟩))

theorem mapping_offers (t : Task) (c : Crossing) (showDeclaring : Bool) (r : Run) :
    Analysis.Yields r (mapping a t c showDeclaring) (fun cs _ => ∀ c ∈ cs, t.Offers c) := by
  have hrest : ∀ (declaring : List Child) (r₁ : Run), (∀ c ∈ declaring, t.Offers c) →
      Analysis.Yields r₁ (do
        let accessors ← Accessor.of a c.continueAt
        return declaring ++ accessors.filterMap (t.accessorChild? ⟨c.nextType, t.context.name⟩))
        (fun cs _ => ∀ c ∈ cs, t.Offers c) := by
    intro declaring r₁ hdeclaring
    exact .bind .any (fun accessors _ _ => .pure (List.forall_mem_append.2
      ⟨hdeclaring, Task.offers_accessorChildren _ accessors⟩))
  cases showDeclaring with
  | false => exact hrest [] r (by simp)
  | true =>
    refine .bind .any (fun decl _ _ => .bind .any (fun n r₁ _ => ?_))
    refine .bind (P := fun declaring _ => ∀ c ∈ declaring, t.Offers c) (.pure ?_)
      (fun declaring r₂ h => hrest declaring r₂ h)
    split
    · simp
    next hkey => simpa using Task.Offers.method (by simpa using hkey) _

theorem accessor_offers (t : Task) (x : Accessor) (r : Run) :
    Analysis.Yields r (accessor a t x) (fun cs _ => ∀ c ∈ cs, t.Offers c) :=
  .bind .any (fun refs r₁ _ => callerChildren_offers t refs r₁)

theorem method_offers {t : Task} (ht : t.step ≠ .root) (m : MethodId) (r : Run) :
    Analysis.Yields r (method a t m) (fun cs _ => ∀ c ∈ cs, t.Offers c) := by
  refine .bind .any (fun refs r₁ _ => .bind (callerChildren_offers t refs r₁)
    (fun callers _ hcallers => ?_))
  refine .bind .any (fun crossings _ _ => .bind .any (fun run _ _ => .pure ?_))
  exact List.forall_mem_append.2 ⟨hcallers, Task.offers_mappingChildren (by simp [ht]) _⟩

/-- Whatever a node stands for, its children come about in one of the three ways. -/
theorem children_offers (t : Task) (r : Run) :
    Analysis.Yields r (children a t) (fun cs _ => ∀ c ∈ cs, t.Offers c) := by
  unfold children
  cases hstep : t.step with
  | root => exact root_offers hstep r
  | mapping c showDeclaring => exact mapping_offers t c showDeclaring r
  | accessor x => exact accessor_offers t x r
  | method m => exact method_offers (by simp [hstep]) m r

theorem children_fits (t : Task) (r : Run) :
    Analysis.Yields r (children a t) (fun cs _ => ∀ c ∈ cs, t.Fits c) :=
  (children_offers t r).mono (fun _ _ h c hc => (h c hc).fits)

/-! ### Trees -/

theorem trees_noRepeats {below : Task → Analysis (List CallTree)} {t : Task} (ht : t.path.Nodup)
    (h : ∀ t', t'.path.Nodup → ∀ r, Analysis.Yields r (below t') (fun kids _ =>
      ∀ kid ∈ kids, CallTree.NoRepeats t'.path kid))
    (children : List Child) (hfits : ∀ c ∈ children, t.Fits c) :
    ∀ r, Analysis.Yields r (trees below children) (fun ts _ =>
      ∀ tree ∈ ts, CallTree.NoRepeats t.path tree) := by
  induction children with
  | nil =>
    intro r
    exact .pure (by simp)
  | cons c children ih =>
    intro r
    obtain ⟨n, task⟩ := c
    obtain ⟨hc, hrest⟩ := List.forall_mem_cons.1 hfits
    have hkey : (n.key :: t.path).Nodup := List.nodup_cons.2 ⟨hc.key_notMem, ht⟩
    cases task with
    | none =>
      refine (ih hrest r).bind (fun ts _ hts => .pure (List.forall_mem_cons.2 ⟨?_, hts⟩))
      exact CallTree.noRepeats_node hkey (by simp)
    | some t' =>
      have hpath : t'.path = n.key :: t.path := hc.path_eq t' rfl
      refine (h t' (hpath ▸ hkey) r).bind (fun kids r₁ hkids => (ih hrest r₁).bind
        (fun ts _ hts => .pure (List.forall_mem_cons.2 ⟨?_, hts⟩)))
      exact CallTree.noRepeats_node hkey (hpath ▸ hkids)

theorem below_noRepeats (remaining : Nat) :
    ∀ t : Task, t.path.Nodup → ∀ r, Analysis.Yields r (below a remaining t) (fun kids _ =>
      ∀ kid ∈ kids, CallTree.NoRepeats t.path kid) := by
  induction remaining with
  | zero =>
    intro t _ r
    exact yields_below_zero (by simp)
  | succ remaining ih =>
    intro t ht r
    refine yields_below_succ ((children_fits t _).mono (fun cs r₁ hcs => ?_)) (by simp)
    exact trees_noRepeats ht ih cs hcs _

end Expansion

theorem buildHierarchy_noRepeats (a : IndexAccess) (seed : FieldRef) (r : Run) :
    Analysis.Yields r (buildHierarchy a seed) (fun tree _ => CallTree.NoRepeats [] tree) := by
  have hleaf : ∀ n, CallTree.NoRepeats [] (Rose.leaf n) := fun n =>
    CallTree.noRepeats_node (by simp) (by simp)
  rw [buildHierarchy_eq]
  refine .bind .any (fun _ _ _ => .bind .any (fun resolved _ _ => ?_))
  cases resolved.filter (fun t => t ≠ "") with
  | none => exact .pure (hleaf _)
  | some type =>
    refine .bind .any (fun found _ _ => ?_)
    cases found with
    | none => exact .pure (hleaf _)
    | some field =>
      have ht : (Task.ofSeed type seed).path.Nodup := by simp [Task.ofSeed]
      refine .bind .any (fun run r₁ _ => .bind (Expansion.below_noRepeats _ _ ht r₁)
        (fun kids _ hkids => .pure ?_))
      exact CallTree.noRepeats_node (by simp) hkids

/-- No key comes twice on a path from the root to a leaf, whatever calls whatever and whatever the
index fails at. -/
theorem nodup_keys_of_mem_paths {a : IndexAccess} {seed : FieldRef} {r r' : Run} {tree : CallTree}
    (h : (buildHierarchy a seed).runOn r = (.ok tree, r')) {p : List CallNode}
    (hp : p ∈ tree.paths) : (p.map CallNode.key).Nodup := by
  have hnodup := buildHierarchy_noRepeats a seed r tree r' h p hp
  rw [List.append_nil] at hnodup
  exact (List.pairwise_reverse.1 hnodup).imp Ne.symm

/-- Two methods that call each other below a mapping node. -/
theorem nodup_keys_of_mem_paths_orders :
    ∃ tree r', (buildHierarchy { index := Orders.index } Orders.seed).runOn {} = (.ok tree, r') ∧
      tree.size = 8 ∧ tree.paths.length = 5 ∧
      ∀ p ∈ tree.paths, (p.map CallNode.key).Nodup := by
  have hsize : ((buildHierarchy { index := Orders.index } Orders.seed).runOn {}).1.toOption.map
      (fun tree => (Rose.size tree, (Rose.paths tree).length)) = some (8, 5) := by
    rw [buildHierarchy_eq]
    decide +kernel
  rcases hrun : (buildHierarchy { index := Orders.index } Orders.seed).runOn {} with ⟨e | tree, r'⟩
  · rw [hrun] at hsize
    cases hsize
  · rw [hrun] at hsize
    obtain ⟨htree, hpaths⟩ := Prod.mk.inj (Option.some.inj hsize)
    exact ⟨tree, r', rfl, htree, hpaths, fun p hp => nodup_keys_of_mem_paths hrun hp⟩

end FieldTrace
