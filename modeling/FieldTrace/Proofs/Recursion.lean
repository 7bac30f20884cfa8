import FieldTrace.Hierarchy.Build
import FieldTrace.Proofs.Outcome

/-! # The tree by recursion

The trees below a node can be had by recursion on the number of levels that remain: the children of
the node in order, each with the trees below it (`Expansion.below`). The loop over a stack of pending
nodes does the same, question for question and poll for poll: taking the top off the stack amounts to
growing its whole subtree and going on with the rest (`grow_cons`). -/

namespace FieldTrace

/-! ### Grafting -/

namespace Rose

variable {α : Type}

theorem modify_length {β : Type} (done : List β) (b : β) (rest : List β) (f : β → β) :
    (done ++ b :: rest).modify done.length f = done ++ f b :: rest := by
  induction done with
  | nil => rfl
  | cons d done ih => simp [ih]

/-- Growing a node right after its parent has received it as a leaf. -/
theorem graft_graft (address : List Nat) (done : List (Rose α)) (a : α) (rest kids : List (Rose α))
    (t : Rose α) :
    (t.graft address (done ++ leaf a :: rest)).graft (address ++ [done.length]) kids =
      t.graft address (done ++ node a kids :: rest) := by
  induction address generalizing t with
  | nil =>
    cases t with
    | node b cs => simp [graft, leaf, modify_length]
  | cons i address ih =>
    cases t with
    | node b cs =>
      have h : graft (address ++ [done.length]) kids ∘ graft address (done ++ leaf a :: rest) =
          graft address (done ++ node a kids :: rest) := by
        funext u
        exact ih u
      simp only [List.cons_append, graft, List.modify_modify_eq, h]

end Rose

/-! ### Recursion on the remaining levels -/

namespace Expansion

/-- The trees of some children, given how the trees below a child are found; nothing is below a
terminal one. -/
def trees (below : Task → Analysis (List CallTree)) : List Child → Analysis (List CallTree)
  | [] => return []
  | (n, none) :: children => do
    let rest ← trees below children
    return .leaf n :: rest
  | (n, some t) :: children => do
    let kids ← below t
    let rest ← trees below children
    return .node n kids :: rest

/-- The trees below a node, at most `remaining` levels deep. A node whose expansion fails has none. -/
def below (a : IndexAccess) : Nat → Task → Analysis (List CallTree)
  | 0, _ => do
    Analysis.checkpoint
    Analysis.count "nodes" 0
    return []
  | remaining + 1, t => do
    Analysis.checkpoint
    match ← Analysis.attempt (children a t) with
    | none => return []
    | some found => do
      Analysis.count "nodes" found.length
      trees (below a remaining) found

end Expansion

/-! ### The loop -/

/-- The pending children from a given position on. -/
def Pending.ofChildrenFrom (remaining : Nat) (address : List Nat) (i : Nat)
    (children : List Child) : List Pending :=
  (children.zipIdx i).filterMap (fun c => c.1.2.map (fun task => ⟨remaining, address ++ [c.2], task⟩))

/-- If each pending node stands for its whole subtree, so do the pending children of one node. Those
before position `done.length` have been grown, the others are leaves. -/
theorem grow_children {a : IndexAccess} {remaining : Nat}
    (ih : ∀ address t rest tree, Rose.graft address [] tree = tree →
      grow a (⟨remaining, address, t⟩ :: rest) tree =
        Expansion.below a remaining t >>= fun kids => grow a rest (tree.graft address kids))
    (address : List Nat) (rest : List Pending) (tree : CallTree) (children : List Child)
    (done : List CallTree) :
    grow a (Pending.ofChildrenFrom remaining address done.length children ++ rest)
        (tree.graft address (done ++ children.map (fun c => Rose.leaf c.1))) =
      Expansion.trees (Expansion.below a remaining) children >>= fun ts =>
        grow a rest (tree.graft address (done ++ ts)) := by
  induction children generalizing done with
  | nil => simp [Pending.ofChildrenFrom, Expansion.trees]
  | cons c children ihc =>
    obtain ⟨n, task⟩ := c
    -- once the child's tree is final it counts as done
    have hstep : ∀ t : CallTree,
        grow a (Pending.ofChildrenFrom remaining address (done.length + 1) children ++ rest)
            (tree.graft address (done ++ t :: children.map (fun c => Rose.leaf c.1))) =
          Expansion.trees (Expansion.below a remaining) children >>= fun ts =>
            grow a rest (tree.graft address (done ++ t :: ts)) := by
      intro t
      simpa using ihc (done ++ [t])
    cases task with
    | none =>
      simp only [Expansion.trees, bind_assoc, pure_bind]
      exact hstep (Rose.leaf n)
    | some t =>
      have hleaf := Rose.graft_graft address done n (children.map (fun c => Rose.leaf c.1))
      simp only [Expansion.trees, bind_assoc, pure_bind]
      refine (ih (address ++ [done.length]) t _ _ (hleaf [] tree)).trans ?_
      congr 1
      funext kids
      rw [hleaf kids tree]
      exact hstep (Rose.node n kids)

/-- Taking the top off the stack amounts to growing its whole subtree. -/
theorem grow_cons (a : IndexAccess) (remaining : Nat) :
    ∀ (address : List Nat) (t : Task) (rest : List Pending) (tree : CallTree),
      tree.graft address [] = tree →
      grow a (⟨remaining, address, t⟩ :: rest) tree =
        Expansion.below a remaining t >>= fun kids => grow a rest (tree.graft address kids) := by
  induction remaining with
  | zero =>
    intro address t rest tree hleaf
    rw [grow, Expansion.below]
    simp only [bind_assoc, pure_bind, hleaf]
  | succ remaining ih =>
    intro address t rest tree hleaf
    rw [grow, Expansion.below]
    simp only [bind_assoc]
    congr 1
    funext _
    congr 1
    funext found
    cases found with
    | none => simp only [pure_bind, hleaf]
    | some children =>
      simp only [bind_assoc]
      congr 1
      funext _
      exact grow_children ih address rest tree children []

/-! ### The whole tree -/

/-- The task of the root. -/
def Task.ofSeed (type : String) (seed : FieldRef) : Task where
  step := .root
  path := [⟨type, seed.name, []⟩]
  spliced := []
  context := ⟨type, seed.name⟩

/-- The caller tree of a seed field by recursion. -/
def hierarchyByRecursion (a : IndexAccess) (seed : FieldRef) : Analysis CallTree := do
  Analysis.checkpoint
  match (← a.resolveType seed.declaringType).filter (fun t => t ≠ "") with
  | none => return .leaf (rootNode seed.declaringType seed none)
  | some type =>
    match ← a.fieldOn type seed.name with
    | none => return .leaf (rootNode type seed none)
    | some field =>
      let kids ← Expansion.below a (← get).settings.maxDepth (Task.ofSeed type seed)
      return .node (rootNode type seed (some field)) kids

theorem buildHierarchy_eq (a : IndexAccess) (seed : FieldRef) :
    buildHierarchy a seed = hierarchyByRecursion a seed := by
  unfold buildHierarchy hierarchyByRecursion
  congr 1
  funext _
  congr 1
  funext resolved
  cases resolved.filter (fun t => t ≠ "") with
  | none => rfl
  | some type =>
    simp only
    congr 1
    funext found
    cases found with
    | none => rfl
    | some field =>
      simp only
      congr 1
      funext r
      rw [grow_cons a r.settings.maxDepth [] _ [] _ rfl]
      congr 1
      funext kids
      rw [grow]
      rfl

/-- The type and the field of a seed are found from a run on. -/
structure SeedFound (a : IndexAccess) (r : Run) (seed : FieldRef) (type : String)
    (field : FieldDecl) : Prop where
  resolves : a.index.resolveType seed.declaringType = some type
  holds : a.index.types.fieldOn type seed.name = some field
  resolve_answers : a.fails r.indexCalls (.resolveType seed.declaringType) = none
  field_answers : a.fails (r.indexCalls + 1) (.fieldOn type seed.name) = none

/-- A run after the token has been polled and two questions have been answered. -/
def Run.afterLookups (r : Run) : Run :=
  { r with token := r.token.poll, indexCalls := r.indexCalls + 1 + 1 }

/-- Once the seed is found the tree is the root with the trees below it. -/
theorem runOn_buildHierarchy {a : IndexAccess} {r : Run} {seed : FieldRef} {type : String}
    {field : FieldDecl} (h : SeedFound a r seed type field) (hnamed : type ≠ "") :
    (buildHierarchy a seed).runOn r =
      if r.token.poll.isCancelled then
        (.error .analysisCancelled, { r with token := r.token.poll })
      else
        Analysis.runOn r.afterLookups (do
          let kids ← Expansion.below a r.settings.maxDepth (Task.ofSeed type seed)
          return .node (rootNode type seed (some field)) kids) := by
  rw [buildHierarchy_eq, hierarchyByRecursion, Analysis.runOn_bind, Analysis.runOn_checkpoint]
  by_cases hcancel : r.token.poll.isCancelled = true
  · simp [hcancel]
  · simp only [hcancel, Bool.false_eq_true, if_false]
    rw [Analysis.runOn_bind_ok _ (by rw [IndexAccess.resolveType, Analysis.runOn_ask,
      h.resolve_answers]), h.resolves, Option.filter_some_pos (by simp [hnamed])]
    simp only
    rw [Analysis.runOn_bind_ok _ (by rw [IndexAccess.fieldOn, Analysis.runOn_ask,
      h.field_answers]), h.holds]
    rfl

/-! ### What holds of the trees below a node -/

namespace Expansion

variable {a : IndexAccess}

/-- A node at the last level has nothing below it. -/
theorem yields_below_zero {t : Task} {r : Run} {Q : List CallTree → Run → Prop}
    (h : Q [] (Run.count { r with token := r.token.poll } "nodes" 0)) :
    Analysis.Yields r (below a 0 t) Q :=
  .bind (P := fun _ r' => Q [] (r'.count "nodes" 0)) (.checkpoint h) (fun _ _ h₁ =>
    .bind (P := fun _ r' => Q [] r') (.count h₁) (fun _ _ h₂ => .pure h₂))

/-- A node above the last level is expanded; if that fails nothing is below it. -/
theorem yields_below_succ {remaining : Nat} {t : Task} {r : Run} {Q : List CallTree → Run → Prop}
    (hok : Analysis.Yields { r with token := r.token.poll } (children a t) (fun found r' =>
      Analysis.Yields (r'.count "nodes" found.length) (trees (below a remaining) found) Q))
    (hfail : ∀ e r', (children a t).runOn { r with token := r.token.poll } = (.error e, r') →
      e.isCancellation = false → Q [] r') :
    Analysis.Yields r (below a (remaining + 1) t) Q := by
  refine .bind (P := fun _ r' => r' = { r with token := r.token.poll }) (.checkpoint rfl) ?_
  rintro _ _ rfl
  refine .bind (P := fun found r' => match found with
    | none => Q [] r'
    | some cs => Analysis.Yields (r'.count "nodes" cs.length) (trees (below a remaining) cs) Q)
    (.attempt hok hfail) ?_
  intro found r₁ h₁
  cases found with
  | none => exact .pure h₁
  | some cs =>
    exact .bind (P := fun _ r' => Analysis.Yields r' (trees (below a remaining) cs) Q)
      (.count h₁) (fun _ _ h₂ => h₂)

/-! ### Failures -/

theorem trees_onlyCancels {below : Task → Analysis (List CallTree)}
    (h : ∀ t, (below t).OnlyCancels) (children : List Child) :
    (trees below children).OnlyCancels := by
  induction children with
  | nil => exact .pure _
  | cons c children ih =>
    obtain ⟨n, task⟩ := c
    cases task with
    | none => exact ih.bind (fun _ => .pure _)
    | some t => exact (h t).bind (fun _ => ih.bind (fun _ => .pure _))

/-- The failure of an expansion ends the branch alone. -/
theorem below_onlyCancels (remaining : Nat) : ∀ t, (below a remaining t).OnlyCancels := by
  induction remaining with
  | zero =>
    intro t
    exact .bind .checkpoint (fun _ => .bind (.count _ _) (fun _ => .pure _))
  | succ remaining ih =>
    intro t
    refine .bind .checkpoint (fun _ => .bind (.attempt _) (fun found => ?_))
    cases found with
    | none => exact .pure _
    | some cs => exact .bind (.count _ _) (fun _ => trees_onlyCancels ih cs)

/-! ### Counting nodes -/

/-- If each subtree counts its nodes, a list of trees counts all nodes but the roots, which were
counted before. -/
theorem trees_counter {below : Task → Analysis (List CallTree)}
    (h : ∀ t r, Analysis.Yields r (below t) (fun kids r' =>
      r'.counter "nodes" = r.counter "nodes" + Rose.forestSize kids)) (children : List Child) :
    ∀ r, Analysis.Yields r (trees below children) (fun ts r' =>
      r'.counter "nodes" + children.length = r.counter "nodes" + Rose.forestSize ts) := by
  induction children with
  | nil =>
    intro r
    exact .pure (by simp [Rose.forestSize])
  | cons c children ih =>
    intro r
    obtain ⟨n, task⟩ := c
    cases task with
    | none =>
      refine (ih r).bind (fun ts r₁ hts => .pure ?_)
      simp only [List.length_cons, Rose.forestSize, Rose.leaf, Rose.size]
      omega
    | some t =>
      refine (h t r).bind (fun kids r₁ hkids => (ih r₁).bind (fun ts r₂ hts => .pure ?_))
      simp only [List.length_cons, Rose.forestSize, Rose.size]
      omega

/-- The counter grows by the number of nodes below. -/
theorem below_counter (remaining : Nat) :
    ∀ t r, Analysis.Yields r (below a remaining t) (fun kids r' =>
      r'.counter "nodes" = r.counter "nodes" + Rose.forestSize kids) := by
  induction remaining with
  | zero =>
    intro t r
    refine yields_below_zero ?_
    rw [Run.counter_count]
    rfl
  | succ remaining ih =>
    intro t r
    -- expanding the node itself does not touch the counter
    have hframe : ∀ {res r'}, (children a t).runOn { r with token := r.token.poll } = (res, r') →
        r'.counter "nodes" = r.counter "nodes" := by
      intro res r' hrun
      have hcounters := (runOn_children_frame a t { r with token := r.token.poll }).2
      rw [hrun] at hcounters
      rw [Run.counter, hcounters, Run.counter]
    refine yields_below_succ (fun found r₁ hrun => ?_) (fun e r₁ hrun _ => ?_)
    · refine (trees_counter ih found _).mono (fun ts r₂ hts => ?_)
      rw [Run.counter_count, hframe hrun] at hts
      omega
    · rw [hframe hrun]
      simp [Rose.forestSize]

/-! ### The trees in terms of expansions -/

/-- What expanding a node gives on a fresh run. -/
def found (a : IndexAccess) (s : Settings) (t : Task) : Option (List Child) :=
  ((children a t).outcome s).toOption

/-- The trees below a node when it is known what expanding each node gives. A node whose expansion
fails has no children, a terminal child is a leaf, and so is every node at the last level. -/
def treesBelow (expand : Task → Option (List Child)) : Nat → Task → List CallTree
  | 0, _ => []
  | remaining + 1, t =>
    ((expand t).getD []).map (fun c => .node c.1 ((c.2.map (treesBelow expand remaining)).getD []))

theorem trees_eq {below : Task → Analysis (List CallTree)} {grown : Task → List CallTree}
    {I : Run → Prop}
    (h : ∀ t r, I r → Analysis.Yields r (below t) (fun kids r' => kids = grown t ∧ I r'))
    (children : List Child) :
    ∀ r, I r → Analysis.Yields r (trees below children) (fun ts r' =>
      ts = children.map (fun c => .node c.1 ((c.2.map grown).getD [])) ∧ I r') := by
  induction children with
  | nil =>
    intro r hr
    exact .pure ⟨rfl, hr⟩
  | cons c children ih =>
    intro r hr
    obtain ⟨n, task⟩ := c
    cases task with
    | none =>
      refine (ih r hr).bind (fun ts r₁ hts => .pure ⟨?_, hts.2⟩)
      rw [hts.1]
      rfl
    | some t =>
      refine (h t r hr).bind (fun kids r₁ hkids =>
        (ih r₁ hkids.2).bind (fun ts r₂ hts => .pure ⟨?_, hts.2⟩))
      rw [hkids.1, hts.1]
      rfl

/-- Over a steady index, and from a sound run, the cache cannot be noticed: each node has the
children that expanding it alone gives. -/
theorem below_eq_treesBelow (h : a.Steady) (s : Settings) (remaining : Nat) :
    ∀ t r, (r.settings = s ∧ r.Sound a) → Analysis.Yields r (below a remaining t) (fun kids r' =>
      kids = treesBelow (found a s) remaining t ∧ r'.settings = s ∧ r'.Sound a) := by
  induction remaining with
  | zero =>
    intro t r hr
    exact yields_below_zero ⟨rfl, hr⟩
  | succ remaining ih =>
    intro t r hr
    have hchildren := h.reproduces_children (s := s) t
    refine yields_below_succ (fun cs r₁ hrun => ?_) (fun e r₁ hrun he => ?_)
    · obtain ⟨hout, hkept⟩ := hchildren.eq_outcome hrun hr.1 hr.2 nofun
      refine (trees_eq ih cs (r₁.count "nodes" cs.length) hkept).mono (fun ts r₂ hts => ⟨?_, hts.2⟩)
      rw [hts.1, treesBelow, found, ← hout]
      rfl
    · obtain ⟨hout, hkept⟩ := hchildren.eq_outcome hrun hr.1 hr.2 (by rintro _ ⟨⟩; exact he)
      refine ⟨?_, hkept⟩
      rw [treesBelow, found, ← hout]
      rfl

end Expansion

/-! ### Simulations of the whole tree -/

namespace Simulation

variable {a : IndexAccess} {plan : FaultPlan} (S : Simulation a plan)

theorem trees {below below' : Task → Analysis (List CallTree)}
    (h : ∀ t, S.Sim Eq (below t) (below' t)) (children : List Child) :
    S.Sim Eq (Expansion.trees below children) (Expansion.trees below' children) := by
  induction children with
  | nil => exact .pure rfl
  | cons c children ih =>
    obtain ⟨n, task⟩ := c
    cases task with
    | none => exact ih.bindEq (fun _ => .pure rfl)
    | some t => exact (h t).bindEq (fun _ => ih.bindEq (fun _ => .pure rfl))

variable (hS : S.Strict)
  (hcount : ∀ name amount, S.Sim Eq (Analysis.count name amount) (Analysis.count name amount))

include hS hcount

theorem below (remaining : Nat) :
    ∀ t, S.Sim Eq (Expansion.below a remaining t)
      (Expansion.below (a.withFaults plan) remaining t) := by
  induction remaining with
  | zero =>
    intro t
    exact S.checkpoint.bindEq (fun _ => (hcount _ _).bindEq (fun _ => .pure rfl))
  | succ remaining ih =>
    intro t
    refine S.checkpoint.bindEq (fun _ => (Link.Sim.attempt hS ((S.sameChildren t).children hS)).bindEq ?_)
    intro found
    cases found with
    | none => exact .pure rfl
    | some cs => exact (hcount _ _).bindEq (fun _ => S.trees ih cs)

theorem buildHierarchy (seed : FieldRef) :
    S.Sim Eq (buildHierarchy a seed) (FieldTrace.buildHierarchy (a.withFaults plan) seed) := by
  rw [buildHierarchy_eq, buildHierarchy_eq]
  refine S.checkpoint.bindEq (fun _ => (S.ask _ _).bindEq (fun resolved => ?_))
  cases resolved.filter (fun t => t ≠ "") with
  | none => exact .pure rfl
  | some type =>
    refine (S.ask _ _).bindEq (fun found => ?_)
    cases found with
    | none => exact .pure rfl
    | some field =>
      refine Link.Sim.get.bind (fun r r' hr => ?_)
      rw [(S.settings hr).maxDepth]
      exact (S.below hS hcount _ _).bindEq (fun _ => .pure rfl)

end Simulation

/-- If nobody cancels, building a tree is not cancelled. -/
theorem buildHierarchy_uncancelled {a : IndexAccess} (h : a.Calm) {r : Run} (hr : r.token.Quiet)
    (seed : FieldRef) : (buildHierarchy a seed).Uncancelled r :=
  Link.Sim.uncancelled ((Simulation.keeping h.stable).buildHierarchy (fun _ _ he => he.elim)
    (by rintro _ _ r _ ⟨rfl, hr⟩; exact .ok rfl ⟨rfl, hr⟩) seed) hr

/-! ### The refinement -/

/-- From any run on which the seed is found, and whatever the index fails at, building a tree that is
not cancelled ends with the tree of the recursion: the stack of pending nodes cannot be noticed. If
questions fail or succeed regardless of when they are put, this is the tree of the expansions of its
nodes, each on its own. The counter grows by the number of nodes below the root. -/
theorem buildHierarchy_eq_recursion {a : IndexAccess} {r : Run} {seed : FieldRef} {type : String}
    {field : FieldDecl} (h : SeedFound a r seed type field) (hnamed : type ≠ "")
    (hcancel : (buildHierarchy a seed).Uncancelled r) :
    ∃ kids r',
      (buildHierarchy a seed).runOn r =
        (.ok (.node (rootNode type seed (some field)) kids), r') ∧
      (Expansion.below a r.settings.maxDepth (Task.ofSeed type seed)).runOn r.afterLookups =
        (.ok kids, r') ∧
      (a.Steady → r.Sound a →
        kids = Expansion.treesBelow (Expansion.found a r.settings) r.settings.maxDepth
          (Task.ofSeed type seed) ∧ r'.Sound a) ∧
      r'.counter "nodes" = r.counter "nodes" + Rose.forestSize kids := by
  have hrun := runOn_buildHierarchy h hnamed
  by_cases hpoll : r.token.poll.isCancelled = true
  · rw [if_pos hpoll] at hrun
    cases hcancel _ _ hrun
  · rw [if_neg hpoll] at hrun
    rcases hbelow : (Expansion.below a r.settings.maxDepth (Task.ofSeed type seed)).runOn
      r.afterLookups with ⟨e | kids, r'⟩
    · rw [Analysis.runOn_bind_error _ hbelow] at hrun
      have hnot := Expansion.below_onlyCancels _ _ _ _ _ hbelow
      rw [hcancel _ _ hrun] at hnot
      cases hnot
    · rw [Analysis.runOn_bind_ok _ hbelow] at hrun
      refine ⟨kids, r', hrun, rfl, fun hsteady hsound => ?_, ?_⟩
      · obtain ⟨hkids, -, hsound'⟩ := Expansion.below_eq_treesBelow hsteady r.settings _ _
          r.afterLookups ⟨rfl, hsound⟩ kids r' hbelow
        exact ⟨hkids, hsound'⟩
      · exact Expansion.below_counter _ _ r.afterLookups kids r' hbelow

/-! ### A small project -/

namespace Orders

/-- The field `id` of a type. -/
def idField (type : String) : FieldDecl where
  declaringType := type
  name := "id"
  typeName := "String"
  rawType := "String"
  elementType := none
  location := ⟨type ++ ".java", 2⟩

/-- A class with the field `id`. -/
def classWithId (type : String) : TypeDecl where
  name := type
  simpleName := type
  kind := .classType
  file := type ++ ".java"
  line := 1
  package := ""
  outer := none
  fields := .ofList [("id", idField type)]

def convert : MethodId := ⟨"Service", "convert", ["Order"]⟩

def retry : MethodId := ⟨"Queue", "retry", []⟩

/-- The call in `convert` that maps an order to its transfer object. -/
def mapCall : CallSite where
  enclosing := convert
  name := "map"
  location := ⟨"Service.java", 5⟩
  receiver := { kind := .expression, text := "mapper", staticType := some "MapperFacade" }
  arguments := [
    { shape := .value, text := "order", typeName := some "Order" },
    { shape := .classLiteral, text := "OrderDto.class", typeName := some "OrderDto" }]

/-- Two types with a field `id`, a call that maps one to the other, and two methods that call each
other. -/
def index : Index where
  registry := { bySimpleName := .ofList [("Order", ["Order"]), ("OrderDto", ["OrderDto"])] }
  types := .ofList [("Order", classWithId "Order"), ("OrderDto", classWithId "OrderDto")]
  callRecord := CallRecord.empty.add mapCall
  callGraph := .ofList [
    (convert, .ofList [(retry, [⟨"Queue.java", 9⟩])]),
    (retry, .ofList [(convert, [⟨"Service.java", 6⟩])])]
  methodUses := .ofList [
    (convert, [⟨some retry, ⟨"Queue.java", 9⟩⟩]),
    (retry, [⟨some convert, ⟨"Service.java", 6⟩⟩])]

def seed : FieldRef := ⟨"Order", "id"⟩

/-- The index finds neither the callers of `retry` nor the holders of transfer objects. -/
def access : IndexAccess where
  index := index
  fails _ call :=
    if call = .callersOf retry || call = .containersOf "OrderDto" then some (.broken "no answer")
    else none

theorem seedFound (r : Run) : SeedFound access r seed "Order" (idField "Order") where
  resolves := by decide +kernel
  holds := by decide +kernel
  resolve_answers := rfl
  field_answers := rfl

theorem access_calm : access.Calm := by
  intro n call e he
  simp only [access] at he
  split at he
  · cases he
    rfl
  · cases he

end Orders

/-- One branch fails, the others are grown. -/
theorem buildHierarchy_eq_recursion_orders :
    ∃ kids r',
      (buildHierarchy Orders.access Orders.seed).runOn {} =
        (.ok (.node (rootNode "Order" Orders.seed (some (Orders.idField "Order"))) kids), r') ∧
      kids = Expansion.treesBelow (Expansion.found Orders.access {}) 12
        (Task.ofSeed "Order" Orders.seed) ∧
      r'.counter "nodes" = Rose.forestSize kids := by
  have hcancel := buildHierarchy_uncancelled Orders.access_calm (r := {}) Token.quiet_default
    Orders.seed
  obtain ⟨kids, r', hrun, -, hsteady, hnodes⟩ :=
    buildHierarchy_eq_recursion (Orders.seedFound {}) (by decide) hcancel
  have hkids := (hsteady (fun _ _ => rfl) (Run.sound_of_empty rfl)).1
  exact ⟨kids, r', hrun, hkids, by simpa [Run.counter, Table.getD] using hnodes⟩

end FieldTrace
