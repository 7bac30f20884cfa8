import FieldTrace.Proofs.Growth

/-! # Trees of expansions

Over a steady index it does not matter what a run remembers by the time it reaches a node: each node
has the children that expanding it alone gives. So the growth of a seed can be written down from
these expansions (`growthOfSeed`), and what is known about single expansions carries over to whole
trees by induction on the levels. -/

namespace FieldTrace

/-! ### Growths from expansions -/

/-- The growth of a child, given how a child grows that is to be expanded. -/
def Growth.ofChild (grow : CallNode → Task → Growth) : Child → Growth
  | (n, none) => .terminal n
  | (n, some t) => grow n t

theorem Growth.forest_eq_map (gs : List Growth) : forest gs = gs.map tree := by
  induction gs with
  | nil => rfl
  | cons g gs ih => rw [forest, ih, List.map_cons]

namespace Expansion

/-- The growth of a node when it is known what expanding each node gives. -/
def growthOver (expand : Task → Option (List Child)) : Nat → CallNode → Task → Growth
  | 0, n, t => .last n t
  | remaining + 1, n, t =>
    match expand t with
    | none => .failed n t
    | some cs => .grown n t (cs.map (.ofChild (growthOver expand remaining)))

/-- Without its tasks the growth is the node with the trees below it. -/
theorem tree_growthOver (expand : Task → Option (List Child)) (remaining : Nat) :
    ∀ n t, (growthOver expand remaining n t).tree = .node n (treesBelow expand remaining t) := by
  induction remaining with
  | zero =>
    intro n t
    rfl
  | succ remaining ih =>
    intro n t
    rw [growthOver, treesBelow]
    cases expand t with
    | none => rfl
    | some cs =>
      rw [Growth.tree, Growth.forest_eq_map, List.map_map, Option.getD_some]
      congr 1
      apply List.map_congr_left
      rintro ⟨n', task⟩ _
      cases task with
      | none => rfl
      | some t' => exact ih n' t'

variable {a : IndexAccess}

theorem growths_eq {growth : CallNode → Task → Analysis Growth} {grow : CallNode → Task → Growth}
    {I : Run → Prop}
    (h : ∀ n t r, I r → Analysis.Yields r (growth n t) (fun g r' => g = grow n t ∧ I r'))
    (children : List Child) :
    ∀ r, I r → Analysis.Yields r (growths growth children) (fun gs r' =>
      gs = children.map (.ofChild grow) ∧ I r') := by
  induction children with
  | nil =>
    intro r hr
    exact .pure ⟨rfl, hr⟩
  | cons c children ih =>
    intro r hr
    obtain ⟨n, task⟩ := c
    cases task with
    | none =>
      refine (ih r hr).bind (fun gs r₁ hgs => .pure ⟨?_, hgs.2⟩)
      rw [hgs.1]
      rfl
    | some t =>
      refine (h n t r hr).bind (fun g r₁ hg =>
        (ih r₁ hg.2).bind (fun gs r₂ hgs => .pure ⟨?_, hgs.2⟩))
      rw [hg.1, hgs.1]
      rfl

/-- Over a steady index, and from a sound run, each node grows to the children that expanding it
alone gives. -/
theorem growth_eq (h : a.Steady) (s : Settings) (remaining : Nat) :
    ∀ n t r, (r.settings = s ∧ r.Sound a) → Analysis.Yields r (growth a remaining n t) (fun g r' =>
      g = growthOver (found a s) remaining n t ∧ r'.settings = s ∧ r'.Sound a) := by
  induction remaining with
  | zero =>
    intro n t r hr
    refine .bind (P := fun _ r' => r'.settings = s ∧ r'.Sound a) (.checkpoint hr) (fun _ r₁ hr₁ => ?_)
    exact .bind (P := fun _ r' => r'.settings = s ∧ r'.Sound a) (.count hr₁)
      (fun _ r₂ hr₂ => .pure ⟨rfl, hr₂⟩)
  | succ remaining ih =>
    intro n t r hr
    have hchildren := h.reproduces_children (s := s) t
    refine .bind (P := fun _ r' => r'.settings = s ∧ r'.Sound a) (.checkpoint hr) (fun _ r₁ hr₁ => ?_)
    refine .bind (P := fun res r' => res = found a s t ∧ r'.settings = s ∧ r'.Sound a)
      (.attempt ?_ ?_) ?_
    · intro cs r₂ hrun
      obtain ⟨hout, hkept⟩ := hchildren.eq_outcome hrun hr₁.1 hr₁.2 nofun
      rw [found, ← hout]
      exact ⟨rfl, hkept⟩
    · intro e r₂ hrun he
      obtain ⟨hout, hkept⟩ := hchildren.eq_outcome hrun hr₁.1 hr₁.2 (by rintro _ ⟨⟩; exact he)
      rw [found, ← hout]
      exact ⟨rfl, hkept⟩
    · rintro res r₂ ⟨rfl, hr₂⟩
      rw [growthOver]
      cases found a s t with
      | none => exact .pure ⟨rfl, hr₂⟩
      | some cs =>
        refine .bind (P := fun _ r' => r'.settings = s ∧ r'.Sound a) (.count hr₂) (fun _ r₃ hr₃ => ?_)
        refine (growths_eq ih cs r₃ hr₃).bind (fun kids r₄ hkids => .pure ⟨?_, hkids.2⟩)
        rw [hkids.1]

end Expansion

/-! ### The tree of a seed -/

/-- The failure at looking up the seed, if there is one. -/
def IndexAccess.seedFailure (a : IndexAccess) (seed : FieldRef) : Option Failure :=
  (a.fails 0 (.resolveType seed.declaringType)).or
    (((a.index.resolveType seed.declaringType).filter (fun t => t ≠ "")).bind
      (fun type => a.fails 0 (.fieldOn type seed.name)))

/-- The growth of a seed when it is known what expanding each node gives. -/
def growthOfSeed (a : IndexAccess) (expand : Task → Option (List Child)) (depth : Nat)
    (seed : FieldRef) : Except Failure Growth :=
  match a.seedFailure seed with
  | some e => .error e
  | none => .ok (.ofChild (Expansion.growthOver expand depth) (rootChild a.index seed))

/-- The tree of a seed when it is known what expanding each node gives. -/
def treeOfSeed (a : IndexAccess) (expand : Task → Option (List Child)) (depth : Nat)
    (seed : FieldRef) : Except Failure CallTree :=
  (growthOfSeed a expand depth seed).map Growth.tree

/-- The tree of a seed fails, is a leaf or has the trees below it that the expansions give,
whichever these are and to whatever depth. -/
theorem treeOfSeed_cases (a : IndexAccess) (seed : FieldRef) :
    (∃ e, ∀ expand depth, treeOfSeed a expand depth seed = .error e) ∨
    (∃ n, ∀ expand depth, treeOfSeed a expand depth seed = .ok (.leaf n)) ∨
    ∃ n t, rootChild a.index seed = (n, some t) ∧ ∀ expand depth,
      treeOfSeed a expand depth seed = .ok (.node n (Expansion.treesBelow expand depth t)) := by
  unfold treeOfSeed growthOfSeed
  cases a.seedFailure seed with
  | some e => exact .inl ⟨e, fun _ _ => rfl⟩
  | none =>
    rcases rootChild a.index seed with ⟨n, _ | t⟩
    · exact .inr (.inl ⟨n, fun _ _ => rfl⟩)
    · exact .inr (.inr ⟨n, t, rfl, fun expand depth =>
        congrArg Except.ok (Expansion.tree_growthOver expand depth n t)⟩)

/-- Growing fails only by cancellation. -/
theorem Expansion.growth_onlyCancels (a : IndexAccess) (remaining : Nat) (n : CallNode) (t : Task) :
    (growth a remaining n t).OnlyCancels := by
  intro r e r' hrun
  have hbelow : (below a remaining t >>= fun kids => pure (.node n kids : CallTree)).runOn r =
      (.error e, r') := by
    rw [← growth_bind a remaining n t pure]
    exact Analysis.runOn_bind_error r hrun _
  obtain ⟨_, hbelow, he⟩ | ⟨kids, r₁, -, hpure⟩ := Analysis.runOn_bind_cases r hbelow
  · cases he
    exact below_onlyCancels remaining t r e r' hbelow
  · cases hpure

/-- Over a steady index, growing that is not cancelled ends with the growth of the expansions. -/
theorem Expansion.growth_uncancelled {a : IndexAccess} (ha : a.Steady) {r : Run} (hr : r.Sound a)
    {remaining : Nat} {n : CallNode} {t : Task} {res : Except Failure Growth} {r' : Run}
    (hrun : (growth a remaining n t).runOn r = (res, r'))
    (hres : ∀ e, res = .error e → e.isCancellation = false) :
    res = .ok (growthOver (found a r.settings) remaining n t) := by
  cases res with
  | error e =>
    have hcancelled := growth_onlyCancels a remaining n t r e r' hrun
    rw [hres e rfl] at hcancelled
    cases hcancelled
  | ok g =>
    obtain ⟨rfl, -⟩ := growth_eq ha r.settings remaining n t r ⟨rfl, hr⟩ g r' hrun
    rfl

/-- So it is from a seed, where a failure at looking it up is the other way to end. -/
theorem growthOf_eq_growthOfSeed {a : IndexAccess} (ha : a.Steady) {r : Run} (hr : r.Sound a)
    (seed : FieldRef) (hcancel : (growthOf a seed).Uncancelled r) :
    ((growthOf a seed).runOn r).1 =
      growthOfSeed a (Expansion.found a r.settings) r.settings.maxDepth seed := by
  rcases hrun : (growthOf a seed).runOn r with ⟨res, r'⟩
  have hres : ∀ e, res = .error e → e.isCancellation = false := by
    rintro e rfl
    exact hcancel e r' hrun
  rw [growthOf] at hrun
  obtain ⟨e, hpoll, rfl⟩ | ⟨_, r₁, hpoll, hrun⟩ := Analysis.runOn_bind_cases r hrun
  · have hcancelled := Analysis.OnlyCancels.checkpoint r e r' hpoll
    rw [hres e rfl] at hcancelled
    cases hcancelled
  obtain rfl : r₁ = { r with token := r.token.poll } := by
    rw [Analysis.runOn_checkpoint] at hpoll
    exact (Prod.mk.inj hpoll).2.symm
  rw [Analysis.runOn_bind, IndexAccess.resolveType, ha.runOn_ask] at hrun
  unfold growthOfSeed IndexAccess.seedFailure rootChild
  cases hresolve : a.fails 0 (.resolveType seed.declaringType) with
  | some e =>
    rw [hresolve] at hrun
    exact (Prod.mk.inj hrun).1.symm
  | none =>
    simp only [hresolve] at hrun
    cases hfilter : (a.index.resolveType seed.declaringType).filter (fun t => t ≠ "") with
    | none =>
      rw [hfilter] at hrun
      exact (Prod.mk.inj hrun).1.symm
    | some type =>
      simp only [hfilter] at hrun
      rw [Analysis.runOn_bind, IndexAccess.fieldOn, ha.runOn_ask] at hrun
      rw [Option.none_or, Option.bind_some]
      cases hfield : a.fails 0 (.fieldOn type seed.name) with
      | some e =>
        rw [hfield] at hrun
        exact (Prod.mk.inj hrun).1.symm
      | none =>
        simp only [hfield] at hrun
        cases hfound : a.index.types.fieldOn type seed.name with
        | none =>
          rw [hfound] at hrun
          simp only [hfound]
          exact (Prod.mk.inj hrun).1.symm
        | some field =>
          simp only [hfound] at hrun ⊢
          rw [Analysis.runOn_bind_ok _ (Analysis.runOn_get _)] at hrun
          -- two questions were asked, which the settings and what is remembered do not show
          have hr₂ : Run.Sound a
              { r with token := r.token.poll, indexCalls := r.indexCalls + 1 + 1 } := hr
          exact Expansion.growth_uncancelled ha hr₂ hrun hres

/-- Growing is cancelled only if building is. -/
theorem growthOf_uncancelled {a : IndexAccess} {seed : FieldRef} {r : Run}
    (h : (buildHierarchy a seed).Uncancelled r) : (growthOf a seed).Uncancelled r := by
  intro e r' hrun
  refine h e r' ?_
  rw [buildHierarchy_eq_growthOf]
  exact Analysis.runOn_bind_error r hrun _

/-- Over a steady index a build that is not cancelled ends with the tree of the expansions. -/
theorem buildHierarchy_eq_treeOfSeed {a : IndexAccess} (ha : a.Steady) {r : Run} (hr : r.Sound a)
    (seed : FieldRef) (hcancel : (buildHierarchy a seed).Uncancelled r) :
    ((buildHierarchy a seed).runOn r).1 =
      treeOfSeed a (Expansion.found a r.settings) r.settings.maxDepth seed := by
  rw [treeOfSeed, ← growthOf_eq_growthOfSeed ha hr seed (growthOf_uncancelled hcancel),
    buildHierarchy_eq_growthOf, Analysis.runOn_bind]
  rcases (growthOf a seed).runOn r with ⟨_ | g, r'⟩
  · rfl
  · rfl

end FieldTrace
