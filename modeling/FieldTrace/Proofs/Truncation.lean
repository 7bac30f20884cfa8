import FieldTrace.Proofs.Pruning
import FieldTrace.Proofs.Unfolding
import FieldTrace.Proofs.Walks

/-! # The depth limit only cuts

No node of a tree lies deeper than the limit. What the children of a node are does not depend on the
limit, so that a tree with a smaller limit is one with a larger limit without its deeper nodes
(`Rose.truncate`). The two trees are built on runs of their own, which remember different things by
the time they reach a node; but over a steady index what is remembered cannot be noticed. -/

namespace FieldTrace

/-! ### Truncated trees -/

namespace Rose

variable {α : Type}

/-- The tree without the nodes deeper than `depth`. -/
def truncate : Nat → Rose α → Rose α
  | 0, node a _ => node a []
  | depth + 1, node a cs => node a (cs.map (truncate depth))

theorem truncate_leaf (depth : Nat) (a : α) : truncate depth (node a []) = node a [] := by
  cases depth <;> rfl

/-- The nodes that remain are those that are not too deep, in their order. -/
theorem depths_truncate (depth : Nat) (t : Rose α) :
    (t.truncate depth).depths = t.depths.filter (fun p => decide (p.1 ≤ depth)) := by
  induction depth generalizing t with
  | zero =>
    cases t with
    | node a cs => simp [truncate, depths_node, List.filter_map, Function.comp_def]
  | succ depth ih =>
    cases t with
    | node a cs =>
      have hkids : (cs.map (truncate depth)).flatMap depths =
          (cs.flatMap depths).filter (fun p => decide (p.1 ≤ depth)) := by
        rw [List.flatMap_map, List.filter_flatMap]
        exact List.flatMap_congr (fun c _ => ih c)
      have hshift : (fun p : Nat × α => decide (p.1 ≤ depth + 1)) ∘
          (fun p : Nat × α => (p.1 + 1, p.2)) = fun p => decide (p.1 ≤ depth) := by
        funext p
        simp
      rw [truncate, depths_node, depths_node, hkids, List.filter_cons_of_pos (by simp),
        List.filter_map, hshift]

/-- A node adds one level to the trees below it. -/
theorem depths_node_le {a : α} {cs : List (Rose α)} {depth : Nat}
    (h : ∀ c ∈ cs, ∀ p ∈ c.depths, p.1 < depth) : ∀ p ∈ (node a cs).depths, p.1 ≤ depth := by
  intro p hp
  rw [depths_node] at hp
  obtain rfl | hp := List.mem_cons.1 hp
  · exact Nat.zero_le _
  · obtain ⟨q, hq, rfl⟩ := List.mem_map.1 hp
    obtain ⟨c, hc, hmem⟩ := List.mem_flatMap.1 hq
    exact h c hc q hmem

end Rose

/-! ### No node is too deep -/

namespace Expansion

variable {a : IndexAccess}

theorem trees_depth {below : Task → Analysis (List CallTree)} {depth : Nat}
    (h : ∀ t r, Analysis.Yields r (below t) (fun kids _ =>
      ∀ kid ∈ kids, ∀ p ∈ kid.depths, p.1 < depth)) (children : List Child) :
    ∀ r, Analysis.Yields r (trees below children) (fun ts _ =>
      ∀ tree ∈ ts, ∀ p ∈ tree.depths, p.1 ≤ depth) := by
  induction children with
  | nil =>
    intro r
    exact .pure (by simp)
  | cons c children ih =>
    intro r
    obtain ⟨n, task⟩ := c
    cases task with
    | none =>
      refine (ih r).bind (fun ts _ hts => .pure (List.forall_mem_cons.2 ⟨?_, hts⟩))
      exact Rose.depths_node_le (by simp)
    | some t =>
      refine (h t r).bind (fun kids r₁ hkids => (ih r₁).bind
        (fun ts _ hts => .pure (List.forall_mem_cons.2 ⟨?_, hts⟩)))
      exact Rose.depths_node_le hkids

/-- The trees below a node stay within the levels that remain. -/
theorem below_depth (remaining : Nat) :
    ∀ t r, Analysis.Yields r (below a remaining t) (fun kids _ =>
      ∀ kid ∈ kids, ∀ p ∈ kid.depths, p.1 < remaining) := by
  induction remaining with
  | zero =>
    intro t r
    exact yields_below_zero (by simp)
  | succ remaining ih =>
    intro t r
    refine yields_below_succ (fun cs r₁ _ => ?_) (by simp)
    exact (trees_depth ih cs _).mono (fun ts _ hts tree htree p hp =>
      Nat.lt_succ_of_le (hts tree htree p hp))

end Expansion

theorem buildHierarchy_depth (a : IndexAccess) (seed : FieldRef) (r : Run) :
    Analysis.Yields r (buildHierarchy a seed) (fun tree _ =>
      ∀ p ∈ tree.depths, p.1 ≤ r.settings.maxDepth) := by
  have hleaf : ∀ n : CallNode, ∀ p ∈ (Rose.leaf n).depths, p.1 ≤ r.settings.maxDepth :=
    fun n => Rose.depths_node_le (by simp)
  rw [buildHierarchy_eq]
  refine .bind (P := fun _ r' => r'.settings = r.settings) (.checkpoint rfl) (fun _ r₁ hr₁ => ?_)
  refine .bind (.ask a _ _) ?_
  rintro resolved _ ⟨-, rfl⟩
  cases resolved.filter (fun t => t ≠ "") with
  | none => exact .pure (hleaf _)
  | some type =>
    refine .bind (.ask a _ _) ?_
    rintro found _ ⟨-, rfl⟩
    cases found with
    | none => exact .pure (hleaf _)
    | some field =>
      refine .bind (P := fun run _ => run.settings = r.settings)
        (by rintro _ _ ⟨⟩; exact hr₁) (fun run r₄ hrun => ?_)
      rw [hrun]
      exact (Expansion.below_depth _ _ r₄).bind (fun kids _ hkids =>
        .pure (Rose.depths_node_le hkids))

/-! ### Children do not depend on the limit -/

/-- Runs whose settings differ in the depth alone. -/
def LocalSimulation.apart (a : IndexAccess) (ha : a.Steady) (s : Settings) (depth : Nat) :
    LocalSimulation a a.fails where
  toSearchSimulation := .settled a ha s { s with maxDepth := depth } ⟨rfl, rfl⟩
  widths hr := by
    rw [hr.1.settings, hr.2.settings]
    exact ⟨rfl, rfl, rfl, rfl, rfl⟩

/-- Expanding a node gives the same whatever the depth. -/
theorem Expansion.found_maxDepth {a : IndexAccess} (ha : a.Steady) (s : Settings) (depth : Nat) :
    found a { s with maxDepth := depth } = found a s := by
  funext t
  have hsim := ((LocalSimulation.apart a ha s depth).sameChildren t).children (fun _ _ he => he.elim)
  have hsame := (hsim _ _ ⟨Run.settled_fresh a s, Run.settled_fresh a _⟩).fst_eq (fun _ _ he => he)
  exact congrArg Except.toOption hsame.symm

/-! ### Trees of expansions -/

/-- With fewer levels there are the same trees, truncated. -/
theorem Expansion.truncate_treesBelow (expand : Task → Option (List Child)) (n : CallNode)
    {depth depth' : Nat} (h : depth ≤ depth') (t : Task) :
    Rose.truncate depth (.node n (treesBelow expand depth' t)) =
      .node n (treesBelow expand depth t) := by
  induction depth generalizing depth' n t with
  | zero => rfl
  | succ depth ih =>
    obtain ⟨depth', rfl⟩ : ∃ k, depth' = k + 1 := ⟨depth' - 1, by omega⟩
    rw [Rose.truncate, treesBelow, treesBelow, List.map_map]
    congr 1
    apply List.map_congr_left
    intro c _
    obtain ⟨n', task⟩ := c
    cases task with
    | none => exact Rose.truncate_leaf depth n'
    | some t' => exact ih n' (by omega) t'

theorem treeOfSeed_truncate (a : IndexAccess) (expand : Task → Option (List Child))
    {depth depth' : Nat} (h : depth ≤ depth') (seed : FieldRef) :
    treeOfSeed a expand depth seed =
      (treeOfSeed a expand depth' seed).map (Rose.truncate depth) := by
  obtain ⟨e, he⟩ | ⟨n, hn⟩ | ⟨n, t, -, ht⟩ := treeOfSeed_cases a seed
  · rw [he, he]
    rfl
  · rw [hn, hn]
    exact congrArg Except.ok (Rose.truncate_leaf depth n).symm
  · rw [ht, ht]
    exact congrArg Except.ok (Expansion.truncate_treesBelow expand n h t).symm

/-! ### The trees of two limits -/

/-- No node of a tree lies deeper than the limit, on any run and whatever the index fails at. Over a
steady index the tree of a limit is the tree of any larger limit without the nodes that are too
deep, whatever the two runs remember, how often they were polled and what they counted. Where the
index answers and nobody cancels there is a tree. -/
theorem buildHierarchy_truncates (a : IndexAccess) (seed : FieldRef) (r : Run) :
    (∀ tree r₁, (buildHierarchy a seed).runOn r = (.ok tree, r₁) →
      ∀ p ∈ tree.depths, p.1 ≤ r.settings.maxDepth) ∧
    (a.Steady → r.Sound a → (buildHierarchy a seed).Uncancelled r →
      ∀ depth r', r.settings.maxDepth ≤ depth →
        r'.settings = { r.settings with maxDepth := depth } →
        r'.Sound a → (buildHierarchy a seed).Uncancelled r' →
          ((buildHierarchy a seed).runOn r).1 =
            ((buildHierarchy a seed).runOn r').1.map (Rose.truncate r.settings.maxDepth) ∧
          ∀ tree tree', ((buildHierarchy a seed).runOn r).1 = .ok tree →
            ((buildHierarchy a seed).runOn r').1 = .ok tree' →
              tree.depths = tree'.depths.filter (fun p => decide (p.1 ≤ r.settings.maxDepth))) ∧
    ((∀ n call, a.fails n call = none) → r.token.Quiet →
      ∃ tree r₁, (buildHierarchy a seed).runOn r = (.ok tree, r₁)) := by
  refine ⟨buildHierarchy_depth a seed r, ?_, ?_⟩
  · intro ha hr hcancel depth r' hdepth hsettings hr' hcancel'
    have hlimit : r'.settings.maxDepth = depth := by rw [hsettings]
    have hfound : Expansion.found a r'.settings = Expansion.found a r.settings := by
      rw [hsettings]
      exact Expansion.found_maxDepth ha r.settings depth
    have hsame : ((buildHierarchy a seed).runOn r).1 =
        ((buildHierarchy a seed).runOn r').1.map (Rose.truncate r.settings.maxDepth) := by
      rw [buildHierarchy_eq_treeOfSeed ha hr seed hcancel,
        buildHierarchy_eq_treeOfSeed ha hr' seed hcancel', hlimit, hfound]
      exact treeOfSeed_truncate a _ hdepth seed
    refine ⟨hsame, fun tree tree' htree htree' => ?_⟩
    rw [htree, htree'] at hsame
    rw [Except.ok.inj hsame, Rose.depths_truncate]
  · intro hnone hquiet
    exact buildHierarchy_exists_ok_of_answers hnone hquiet seed

/-- A node three levels down is lost. -/
theorem buildHierarchy_truncates_orders :
    ∃ tree tree',
      ((buildHierarchy Orders.access Orders.seed).runOn { settings := { maxDepth := 2 } }).1 =
        .ok tree ∧
      ((buildHierarchy Orders.access Orders.seed).runOn {}).1 = .ok tree' ∧
      tree = tree'.truncate 2 ∧ (∀ p ∈ tree.depths, p.1 ≤ 2) ∧
      tree.depths.length = 7 ∧ tree'.depths.length = 8 := by
  have hcancel := fun (r : Run) (hr : r.token.Quiet) =>
    buildHierarchy_uncancelled Orders.access_calm hr Orders.seed
  obtain ⟨hdepth, hcut, -⟩ := buildHierarchy_truncates Orders.access Orders.seed
    { settings := { maxDepth := 2 } }
  obtain ⟨hsame, -⟩ :=
    hcut (fun _ _ => rfl) (Run.sound_of_empty rfl) (hcancel _ Token.quiet_default)
      12 {} (by decide) rfl (Run.sound_of_empty rfl) (hcancel _ Token.quiet_default)
  obtain ⟨tree', r', hrun'⟩ := buildHierarchy_exists_ok Orders.access_calm (r := {})
    Token.quiet_default Orders.seed rfl (fun _ _ => rfl)
  rcases hrun : (buildHierarchy Orders.access Orders.seed).runOn { settings := { maxDepth := 2 } }
    with ⟨res, r₁⟩
  rw [hrun, hrun'] at hsame
  cases hsame
  have hsize : ((hierarchyByRecursion Orders.access Orders.seed).runOn
      { settings := { maxDepth := 2 } }).1.toOption.map (fun t => t.depths.length) = some 7 := by
    decide +kernel
  have hsize' : ((hierarchyByRecursion Orders.access Orders.seed).runOn {}).1.toOption.map
      (fun t => t.depths.length) = some 8 := by
    decide +kernel
  rw [← buildHierarchy_eq, hrun] at hsize
  rw [← buildHierarchy_eq, hrun'] at hsize'
  exact ⟨_, tree', rfl, by rw [hrun'], rfl, hdepth _ _ hrun, Option.some.inj hsize,
    Option.some.inj hsize'⟩

end FieldTrace
