import FieldTrace.Proofs.Composition
import FieldTrace.Proofs.Paths

/-! # How a tree grows

A growth is a call tree that tells of each node what became of it: whether it was expanded, to which
task, and whether that failed. The recursion that builds a tree can be made to return its growth
instead (`Expansion.growth`); leaving the tasks out gives the tree again, question for question and
poll for poll.

Each node of a growth has been expanded on some run that remembers outcomes only (`Growth.Grown`).
Every fact about the nodes of a tree follows from that and from what an expansion can do. -/

namespace FieldTrace

/-- A tree with what became of each node: the trace ends there, it stands at the last level, its
expansion failed, or it has been expanded. -/
inductive Growth where
  | terminal (node : CallNode)
  | last (node : CallNode) (task : Task)
  | failed (node : CallNode) (task : Task)
  | grown (node : CallNode) (task : Task) (kids : List Growth)

namespace Growth

def node : Growth → CallNode
  | terminal n => n
  | last n _ => n
  | failed n _ => n
  | grown n _ _ => n

def task? : Growth → Option Task
  | terminal _ => none
  | last _ t => some t
  | failed _ t => some t
  | grown _ t _ => some t

def kids : Growth → List Growth
  | grown _ _ gs => gs
  | _ => []

/-- The child that the growth has come from. -/
def child (g : Growth) : Child := (g.node, g.task?)

mutual

/-- The tree alone. -/
def tree : Growth → CallTree
  | terminal n => .leaf n
  | last n _ => .leaf n
  | failed n _ => .leaf n
  | grown n _ gs => .node n (forest gs)

/-- The trees alone. -/
def forest : List Growth → List CallTree
  | [] => []
  | g :: gs => g.tree :: forest gs

end

end Growth

/-! ### Growing -/

namespace Expansion

/-- The growths of some children, given how a child grows that is to be expanded. -/
def growths (growth : CallNode → Task → Analysis Growth) : List Child → Analysis (List Growth)
  | [] => return []
  | (n, none) :: children => do
    let rest ← growths growth children
    return .terminal n :: rest
  | (n, some t) :: children => do
    let g ← growth n t
    let rest ← growths growth children
    return g :: rest

/-- The growth of a node, at most `remaining` levels deep. -/
def growth (a : IndexAccess) : Nat → CallNode → Task → Analysis Growth
  | 0, n, t => do
    Analysis.checkpoint
    Analysis.count "nodes" 0
    return .last n t
  | remaining + 1, n, t => do
    Analysis.checkpoint
    match ← Analysis.attempt (children a t) with
    | none => return .failed n t
    | some found => do
      Analysis.count "nodes" found.length
      let kids ← growths (growth a remaining) found
      return .grown n t kids

/-- Whatever follows on the trees of some children may follow on their growths. -/
theorem growths_bind {β : Type} {growth : CallNode → Task → Analysis Growth}
    {below : Task → Analysis (List CallTree)}
    (h : ∀ n t (k : CallTree → Analysis β),
      (growth n t >>= fun g => k g.tree) = below t >>= fun kids => k (.node n kids))
    (children : List Child) (k : List CallTree → Analysis β) :
    (growths growth children >>= fun gs => k (Growth.forest gs)) = trees below children >>= k := by
  induction children generalizing k with
  | nil => simp [growths, trees, Growth.forest]
  | cons c children ih =>
    obtain ⟨n, task⟩ := c
    cases task with
    | none =>
      simp only [growths, trees, bind_assoc, pure_bind, Growth.forest, Growth.tree]
      exact ih (fun ts => k (.leaf n :: ts))
    | some t =>
      simp only [growths, trees, bind_assoc, pure_bind, Growth.forest]
      rw [← h n t (fun tree => trees below children >>= fun ts => k (tree :: ts))]
      congr 1
      funext g
      exact ih (fun ts => k (g.tree :: ts))

/-- The growth of a node without its tasks is the node with the trees below it. -/
theorem growth_bind {β : Type} (a : IndexAccess) (remaining : Nat) :
    ∀ n t (k : CallTree → Analysis β),
      (growth a remaining n t >>= fun g => k g.tree) =
        below a remaining t >>= fun kids => k (.node n kids) := by
  induction remaining with
  | zero =>
    intro n t k
    simp only [growth, below, bind_assoc, pure_bind, Growth.tree, Rose.leaf]
  | succ remaining ih =>
    intro n t k
    simp only [growth, below, bind_assoc]
    congr 1
    funext _
    congr 1
    funext found
    cases found with
    | none => simp only [pure_bind, Growth.tree, Rose.leaf]
    | some cs =>
      simp only [bind_assoc, pure_bind, Growth.tree]
      congr 1
      funext _
      exact growths_bind ih cs (fun kids => k (.node n kids))

end Expansion

/-- The growth of the tree of a seed field. -/
def growthOf (a : IndexAccess) (seed : FieldRef) : Analysis Growth := do
  Analysis.checkpoint
  match (← a.resolveType seed.declaringType).filter (fun t => t ≠ "") with
  | none => return .terminal (rootNode seed.declaringType seed none)
  | some type =>
    match ← a.fieldOn type seed.name with
    | none => return .terminal (rootNode type seed none)
    | some field =>
      Expansion.growth a (← get).settings.maxDepth (rootNode type seed (some field))
        (Task.ofSeed type seed)

theorem buildHierarchy_eq_growthOf (a : IndexAccess) (seed : FieldRef) :
    buildHierarchy a seed = growthOf a seed >>= fun g => pure g.tree := by
  rw [buildHierarchy_eq]
  simp only [hierarchyByRecursion, growthOf, bind_assoc]
  congr 1
  funext _
  congr 1
  funext resolved
  cases resolved.filter (fun t => t ≠ "") with
  | none => simp only [pure_bind, Growth.tree]
  | some type =>
    simp only [bind_assoc]
    congr 1
    funext found
    cases found with
    | none => simp only [pure_bind, Growth.tree]
    | some field =>
      simp only [bind_assoc]
      congr 1
      funext r
      exact (Expansion.growth_bind a r.settings.maxDepth _ _ pure).symm

/-- A tree that is built has a growth. -/
theorem growthOf_of_buildHierarchy {a : IndexAccess} {seed : FieldRef} {r r' : Run}
    {tree : CallTree} (h : (buildHierarchy a seed).runOn r = (.ok tree, r')) :
    ∃ g, (growthOf a seed).runOn r = (.ok g, r') ∧ g.tree = tree := by
  rw [buildHierarchy_eq_growthOf] at h
  obtain ⟨g, r₁, hgrowth, hpure⟩ := (Analysis.runOn_bind_eq_ok r).1 h
  cases hpure
  exact ⟨g, hgrowth, rfl⟩

/-! ### Every node comes from its expansion -/

/-- The nodes of the growth, at most `remaining` levels deep, come from expansions on runs that
remember outcomes only. -/
inductive Growth.Grown (a : IndexAccess) (s : Settings) : Nat → Growth → Prop where
  | terminal (remaining : Nat) (n : CallNode) : Grown a s remaining (.terminal n)
  | last (n : CallNode) (t : Task) : Grown a s 0 (.last n t)
  | failed {remaining : Nat} {t : Task} {r r' : Run} {e : Failure} (n : CallNode)
    (hr : r.Faithful a s) (hrun : (Expansion.children a t).runOn r = (.error e, r'))
    (he : e.isCancellation = false) : Grown a s (remaining + 1) (.failed n t)
  | grown {remaining : Nat} {t : Task} {r r' : Run} {kids : List Growth} (n : CallNode)
    (hr : r.Faithful a s)
    (hrun : (Expansion.children a t).runOn r = (.ok (kids.map Growth.child), r'))
    (hkids : ∀ kid ∈ kids, Grown a s remaining kid) : Grown a s (remaining + 1) (.grown n t kids)

namespace Expansion

variable {a : IndexAccess} {s : Settings}

theorem growths_grown {remaining : Nat} {growth : CallNode → Task → Analysis Growth}
    (h : ∀ n t (r : Run), r.Faithful a s → Analysis.Yields r (growth n t) (fun g r' =>
      g.child = (n, some t) ∧ g.Grown a s remaining ∧ r'.Faithful a s)) (children : List Child) :
    ∀ r : Run, r.Faithful a s → Analysis.Yields r (growths growth children) (fun gs r' =>
      gs.map Growth.child = children ∧ (∀ g ∈ gs, g.Grown a s remaining) ∧ r'.Faithful a s) := by
  induction children with
  | nil =>
    intro r hr
    exact .pure ⟨rfl, by simp, hr⟩
  | cons c children ih =>
    intro r hr
    obtain ⟨n, task⟩ := c
    cases task with
    | none =>
      refine (ih r hr).bind (fun gs r₁ hgs => .pure ⟨?_, ?_, hgs.2.2⟩)
      · rw [List.map_cons, hgs.1]
        rfl
      · exact List.forall_mem_cons.2 ⟨.terminal _ n, hgs.2.1⟩
    | some t =>
      refine (h n t r hr).bind (fun g r₁ hg => (ih r₁ hg.2.2).bind (fun gs r₂ hgs =>
        .pure ⟨?_, ?_, hgs.2.2⟩))
      · rw [List.map_cons, hg.1, hgs.1]
      · exact List.forall_mem_cons.2 ⟨hg.2.1, hgs.2.1⟩

theorem growth_grown (remaining : Nat) :
    ∀ n t (r : Run), r.Faithful a s → Analysis.Yields r (growth a remaining n t) (fun g r' =>
      g.child = (n, some t) ∧ g.Grown a s remaining ∧ r'.Faithful a s) := by
  induction remaining with
  | zero =>
    intro n t r hr
    refine .bind (P := fun _ r' => r'.Faithful a s) (.checkpoint hr) (fun _ r₁ hr₁ => ?_)
    refine .bind (P := fun _ r' => r'.Faithful a s) (.count hr₁) (fun _ r₂ hr₂ => .pure ?_)
    exact ⟨rfl, .last n t, hr₂⟩
  | succ remaining ih =>
    intro n t r hr
    have hchildren := Analysis.Composed.children (a := a) t
    refine .bind (P := fun _ r' => r'.Faithful a s) (.checkpoint hr) (fun _ r₁ hr₁ => ?_)
    -- a failed expansion is remembered by its run, a successful one also by the children it found
    refine .bind (P := fun found r' => r'.Faithful a s ∧ match found with
      | none => ∃ e, (children a t).runOn r₁ = (.error e, r') ∧ e.isCancellation = false
      | some cs => (children a t).runOn r₁ = (.ok cs, r')) (.attempt ?_ ?_) ?_
    · intro cs r₂ hrun
      exact ⟨hchildren.faithful hrun hr₁, hrun⟩
    · intro e r₂ hrun he
      exact ⟨hchildren.faithful hrun hr₁, e, hrun, he⟩
    · rintro found r₂ ⟨hr₂, hfound⟩
      cases found with
      | none =>
        obtain ⟨e, hrun, he⟩ := hfound
        exact .pure ⟨rfl, .failed n hr₁ hrun he, hr₂⟩
      | some cs =>
        refine .bind (P := fun _ r' => r'.Faithful a s) (.count hr₂) (fun _ r₃ hr₃ => ?_)
        refine (growths_grown ih cs r₃ hr₃).bind (fun kids r₄ hkids => .pure ⟨rfl, ?_, hkids.2.2⟩)
        exact .grown n hr₁ (by rw [hkids.1]; exact hfound) hkids.2.1

end Expansion

/-- The root of the tree of a seed, with its task if the field is declared. -/
def rootChild (idx : Index) (seed : FieldRef) : Child :=
  match (idx.resolveType seed.declaringType).filter (fun t => t ≠ "") with
  | none => (rootNode seed.declaringType seed none, none)
  | some type =>
    match idx.types.fieldOn type seed.name with
    | none => (rootNode type seed none, none)
    | some field => (rootNode type seed (some field), some (Task.ofSeed type seed))

theorem growthOf_grown (a : IndexAccess) (seed : FieldRef) {s : Settings} {r : Run}
    (hr : r.Faithful a s) :
    Analysis.Yields r (growthOf a seed) (fun g _ =>
      g.Grown a s s.maxDepth ∧ g.child = rootChild a.index seed) := by
  unfold rootChild
  refine .bind (P := fun _ r' => r'.Faithful a s) (.checkpoint hr) (fun _ r₁ hr₁ => ?_)
  refine .bind (Analysis.yields_ask hr₁ _ _) (fun resolved r₂ hresolved => ?_)
  obtain ⟨rfl, hr₂⟩ := hresolved
  cases (a.index.resolveType seed.declaringType).filter (fun t => t ≠ "") with
  | none => exact .pure ⟨.terminal _ _, rfl⟩
  | some type =>
    refine .bind (Analysis.yields_ask hr₂ _ _) (fun found r₃ hfound => ?_)
    obtain ⟨rfl, hr₃⟩ := hfound
    simp only
    cases a.index.types.fieldOn type seed.name with
    | none => exact .pure ⟨.terminal _ _, rfl⟩
    | some field =>
      refine .bind (P := fun run r' => run.settings = s ∧ r'.Faithful a s)
        (by rintro _ _ ⟨⟩; exact ⟨hr₃.1, hr₃⟩) ?_
      rintro run r₄ ⟨hs, hr₄⟩
      rw [hs]
      exact (Expansion.growth_grown _ _ _ r₄ hr₄).mono (fun g r' hg => ⟨hg.2.1, hg.1⟩)

/-- The task of the root has its key as its path, and expands it as the root. -/
theorem rootChild_task (idx : Index) (seed : FieldRef) :
    ∀ t, (rootChild idx seed).2 = some t →
      t.path = [(rootChild idx seed).1.key] ∧ t.step = .root := by
  unfold rootChild
  cases (idx.resolveType seed.declaringType).filter (fun t => t ≠ "") with
  | none => rintro t ⟨⟩
  | some type =>
    simp only
    cases idx.types.fieldOn type seed.name with
    | none => rintro t ⟨⟩
    | some field =>
      rintro t ⟨⟩
      exact ⟨rfl, rfl⟩

/-! ### Positions -/

/-- What a child stands for that is to be expanded. -/
theorem Task.Offers.step_cases {t t' : Task} {c : Child} (h : t.Offers c) (hc : c.2 = some t') :
    (∃ m, t'.step = .method m) ∨ (∃ x, t'.step = .accessor x) ∨
      ∃ crossing, t'.step = .mapping crossing (decide (t.step = .root)) := by
  cases h with
  | @method n _ m =>
    unfold Task.methodChild at hc
    split at hc
    · cases hc
    · cases hc
      exact .inl ⟨m, rfl⟩
  | @mapping crossing _ h =>
    obtain ⟨-, rfl⟩ := Task.mappingChild?_eq_some h
    cases hc
    exact .inr (.inr ⟨crossing, rfl⟩)
  | @accessor _ x _ h =>
    obtain ⟨-, rfl⟩ := Task.accessorChild?_eq_some h
    cases hc
    exact .inr (.inl ⟨x, rfl⟩)

theorem Task.Offers.step_ne_root {t t' : Task} {c : Child} (h : t.Offers c) (hc : c.2 = some t') :
    t'.step ≠ .root := by
  obtain ⟨m, hstep⟩ | ⟨x, hstep⟩ | ⟨crossing, hstep⟩ := h.step_cases hc <;> simp [hstep]

namespace Growth

/-- The second growth stands in the first below the given ones, innermost first. -/
inductive At (g : Growth) : List Growth → Growth → Prop where
  | here : g.At [] g
  | under {above : List Growth} {x kid : Growth} (h : g.At above x) (hkid : kid ∈ x.kids) :
    g.At (x :: above) kid

variable {a : IndexAccess} {s : Settings} {seed : FieldRef} {g : Growth}

/-- A node with children has been expanded, and each of them has been offered. -/
theorem Grown.offers {remaining : Nat} {x kid : Growth} (h : x.Grown a s remaining)
    (hkid : kid ∈ x.kids) :
    ∃ n t kids remaining', x = .grown n t kids ∧ kid.Grown a s remaining' ∧ t.Offers kid.child := by
  cases h with
  | terminal | last | failed => cases hkid
  | @grown remaining t r r' kids n hr hrun hkids =>
    have hoffers := Expansion.children_offers t r _ _ hrun _ (List.mem_map_of_mem hkid)
    exact ⟨n, t, kids, remaining, rfl, hkids kid hkid, hoffers⟩

theorem Grown.at {remaining : Nat} (hg : g.Grown a s remaining) {above : List Growth} {x : Growth}
    (h : g.At above x) : ∃ remaining', x.Grown a s remaining' := by
  induction h with
  | here => exact ⟨remaining, hg⟩
  | under _ hkid ih =>
    obtain ⟨_, hx⟩ := ih
    obtain ⟨_, _, _, remaining', _, hkid', _⟩ := hx.offers hkid
    exact ⟨remaining', hkid'⟩

/-- A task carries the keys of its node and of those above. -/
theorem Grown.path_eq {remaining : Nat} (hg : g.Grown a s remaining)
    (hroot : g.child = rootChild a.index seed) {above : List Growth} {x : Growth}
    (h : g.At above x) :
    ∀ t, x.task? = some t → t.path = (x :: above).map (fun y => y.node.key) := by
  induction h with
  | here =>
    intro t ht
    have hpath := (rootChild_task a.index seed t (hroot ▸ ht)).1
    rw [hpath, ← hroot]
    rfl
  | under hx hkid ih =>
    intro t ht
    obtain ⟨_, hgrown⟩ := hg.at hx
    obtain ⟨n, t₀, kids, _, rfl, -, hoffers⟩ := hgrown.offers hkid
    rw [hoffers.fits.path_eq t ht, ih t₀ rfl]
    rfl

/-- Only the root is expanded as the root, and only the mapping nodes right below it show the
declaring method. -/
theorem Grown.step_eq {remaining : Nat} (hg : g.Grown a s remaining)
    (hroot : g.child = rootChild a.index seed) {above : List Growth} {x : Growth}
    (h : g.At above x) :
    ∀ t, x.task? = some t → (t.step = .root ↔ above = []) ∧
      ∀ c showDeclaring, t.step = .mapping c showDeclaring →
        (showDeclaring = true ↔ above.length = 1) := by
  induction h with
  | here =>
    intro t ht
    have hstep := (rootChild_task a.index seed t (hroot ▸ ht)).2
    simp [hstep]
  | @under above x kid hx hkid ih =>
    intro t ht
    obtain ⟨_, hgrown⟩ := hg.at hx
    obtain ⟨n, t₀, kids, _, rfl, -, hoffers⟩ := hgrown.offers hkid
    have hfirst := (ih t₀ rfl).1
    obtain ⟨m, hstep⟩ | ⟨x, hstep⟩ | ⟨c, hstep⟩ := hoffers.step_cases ht
    · simp [hstep]
    · simp [hstep]
    · simp [hstep, hfirst]

end Growth

end FieldTrace
