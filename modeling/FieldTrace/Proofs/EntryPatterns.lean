import FieldTrace.Proofs.Contexts
import FieldTrace.Proofs.Edges
import FieldTrace.Proofs.Unfolding
import Mathlib.Data.List.TakeWhile

/-! # Further entry points

A pattern for entry points makes entry points of the methods of some owners, and changes nothing else
about how methods are classified, whatever the table of rules. In a tree it cuts: every caller whose
owner matches becomes a leaf, and all other nodes stay (`Growth.cutBelow`). -/

namespace FieldTrace

/-! ### Classification -/

namespace CategoryRule

/-- Some pattern occurs in the simple name of the owner, regardless of case. -/
def matchesOwner (patterns : List String) (owner : String) : Bool :=
  patterns.any (fun p => p ≠ "" && Text.occursIn (Text.lower p) (Text.lower (simpleName owner)))

theorem withEntryPatterns_nil (rules : List CategoryRule) : withEntryPatterns rules [] = rules := by
  rw [withEntryPatterns, List.filter_nil, List.map_nil, List.append_nil, List.takeWhile_append_dropWhile]

variable {rules : List CategoryRule} {patterns : List String} {m : MethodTraits}
  {fits : String → String → Bool}

/-- A rule for a further entry point matches exactly the methods of the owners that are meant. -/
theorem exists_entryRule_iff :
    (∃ r ∈ (patterns.filter (fun p => p ≠ "")).map ofEntryPattern, r.matchesMethod m fits = true) ↔
      matchesOwner patterns m.id.owner = true := by
  rw [matchesOwner, List.any_eq_true]
  constructor
  · rintro ⟨_, hr, hmatch⟩
    obtain ⟨p, hp, rfl⟩ := List.mem_map.1 hr
    obtain ⟨hp, hne⟩ := List.mem_filter.1 hp
    exact ⟨p, hp, Bool.and_eq_true_iff.2 ⟨hne, hmatch⟩⟩
  · rintro ⟨p, hp, hmatch⟩
    obtain ⟨hne, hmatch⟩ := Bool.and_eq_true_iff.1 hmatch
    exact ⟨_, List.mem_map_of_mem (List.mem_filter.2 ⟨hp, hne⟩), hmatch⟩

/-- In every table, further patterns make entry points of the methods of the owners that they match,
and leave the category of all other methods alone. -/
theorem classify_withEntryPatterns :
    classify (withEntryPatterns rules patterns) m fits =
      if matchesOwner patterns m.id.owner then .entryPoint else classify rules m fits := by
  have hwhole : first? rules m fits =
      ((rules.takeWhile (fun r => r.category = .entryPoint)).find?
        (fun r => r.matchesMethod m fits)).or
        ((rules.dropWhile (fun r => r.category = .entryPoint)).find?
          (fun r => r.matchesMethod m fits)) := by
    rw [← List.find?_append, List.takeWhile_append_dropWhile, first?]
  rw [classify, classify, hwhole, first?, withEntryPatterns, List.find?_append, List.find?_append]
  cases hlead : (rules.takeWhile (fun r => r.category = .entryPoint)).find?
      (fun r => r.matchesMethod m fits) with
  | some r =>
    -- a leading rule wins in both tables, and it is one for entry points
    have hr : r.category = .entryPoint := by
      simpa using List.mem_takeWhile_imp (List.mem_of_find?_eq_some hlead)
    simp [hr]
  | none =>
    cases hentry : ((patterns.filter (fun p => p ≠ "")).map ofEntryPattern).find?
        (fun r => r.matchesMethod m fits) with
    | some r =>
      have hmatch := List.find?_some hentry
      have hmem := List.mem_of_find?_eq_some hentry
      obtain ⟨p, -, rfl⟩ := List.mem_map.1 hmem
      rw [if_pos (exists_entryRule_iff.1 ⟨_, hmem, hmatch⟩)]
      rfl
    | none =>
      have hno : ¬ matchesOwner patterns m.id.owner = true := by
        rw [← exists_entryRule_iff]
        rintro ⟨r, hr, hmatch⟩
        exact List.find?_eq_none.1 hentry r hr hmatch
      rw [if_neg hno]
      rfl

end CategoryRule

/-! ### Nodes and children -/

/-- The node as an entry point. -/
def CallNode.asEntryPoint (n : CallNode) : CallNode := { n with category := .entryPoint }

/-- The node of a method, ended by patterns that match its owner. -/
def CallNode.endAt (patterns : List String) (n : CallNode) : CallNode :=
  if CategoryRule.matchesOwner patterns n.owner then n.asEntryPoint else n

@[simp] theorem CallNode.key_endAt (patterns : List String) (n : CallNode) :
    (n.endAt patterns).key = n.key := by
  unfold endAt
  split <;> rfl

def Step.isMethod : Step → Bool
  | .method _ => true
  | .root | .mapping _ _ | .accessor _ => false

/-- The child stands for a method; only methods are shown without a task. -/
def Child.isMethod (c : Child) : Bool := c.2.all (fun t => t.step.isMethod)

/-- The child is a method whose owner matches. -/
def Child.matchesOwner (patterns : List String) (c : Child) : Bool :=
  c.isMethod && CategoryRule.matchesOwner patterns c.1.owner

/-- The child, as a leaf if it is a method whose owner matches. -/
def Child.endAt (patterns : List String) (c : Child) : Child :=
  if c.matchesOwner patterns then (c.1.asEntryPoint, none) else c

theorem Child.endAt_of_not_isMethod {patterns : List String} {c : Child} (h : c.isMethod = false) :
    c.endAt patterns = c := by
  rw [endAt, matchesOwner, h, Bool.false_and]
  rfl

/-- Ending the node of a method ends the child. -/
theorem Task.methodChild_endAt (t : Task) (patterns : List String) (n : CallNode) (m : MethodId) :
    t.methodChild (n.endAt patterns) m = (t.methodChild n m).endAt patterns := by
  have hmethod : (t.methodChild n m).isMethod = true := by
    unfold methodChild
    split <;> rfl
  rw [Child.endAt, Child.matchesOwner, hmethod, Bool.true_and, Task.fst_methodChild, CallNode.endAt]
  split
  · rfl
  · rfl

/-- With further patterns a method that is declared under its identity is ended if its owner
matches. -/
theorem Index.methodNode_endAt {idx : Index} (hids : ∀ m d, idx.method m = some d → d.id = m)
    (s : Settings) (m : MethodId) (place : Option Location) :
    idx.methodNode s m place =
      (idx.methodNode { s with extraEntryPatterns := [] } m place).endAt s.extraEntryPatterns := by
  -- what the rules see of the method has its owner, declared or not
  have hnode : ∀ traits : MethodTraits, traits.id.owner = m.owner →
      ({ owner := m.owner, name := m.name, params := m.params, location := place,
         category := CategoryRule.classify
          (CategoryRule.withEntryPatterns CategoryRule.standard s.extraEntryPatterns) traits,
         label := m.label } : CallNode) =
        CallNode.endAt s.extraEntryPatterns
          { owner := m.owner, name := m.name, params := m.params, location := place,
            category := CategoryRule.classify
              (CategoryRule.withEntryPatterns CategoryRule.standard []) traits,
            label := m.label } := by
    intro traits howner
    rw [CategoryRule.classify_withEntryPatterns, CategoryRule.withEntryPatterns_nil, howner]
    unfold CallNode.endAt
    by_cases hmatch : CategoryRule.matchesOwner s.extraEntryPatterns m.owner = true
    · simp only [hmatch, if_true]
      rfl
    · simp only [hmatch, Bool.false_eq_true, if_false]
  refine hnode _ ?_
  cases hd : idx.method m with
  | none => rfl
  | some d => exact congrArg MethodId.owner (hids m d hd)

/-! ### Expansions -/

namespace EntryPatterns

variable {a : IndexAccess} {s : Settings}

/-- Settled runs, of which the second one knows of no further entry points. -/
abbrev link (a : IndexAccess) (s : Settings) : Link :=
  Link.settled a s { s with extraEntryPatterns := [] }

theorem methodNode (ha : a.Steady) (hids : ∀ m d, a.index.method m = some d → d.id = m)
    (m : MethodId) (place : Option Location) :
    (link a s).Sim (fun n n₀ => n = n₀.endAt s.extraEntryPatterns)
      (Expansion.methodNode a m place) (Expansion.methodNode a m place) := by
  rintro r r₀ ⟨hr, hr₀⟩
  rw [Expansion.runOn_methodNode ha, Expansion.runOn_methodNode ha]
  have hlinked : (link a s).rel { r with indexCalls := r.indexCalls + 1 }
      { r₀ with indexCalls := r₀.indexCalls + 1 } :=
    ⟨⟨hr.settings, hr.sound, hr.quiet⟩, ⟨hr₀.settings, hr₀.sound, hr₀.quiet⟩⟩
  cases a.fails 0 (.method m) with
  | some e => exact .error (fun _ => trivial) hlinked
  | none =>
    refine .ok ?_ hlinked
    rw [hr.settings, hr₀.settings]
    exact Index.methodNode_endAt hids s m place

/-- The same callers are shown, some of them as leaves. -/
theorem callersAt (ha : a.Steady) (hids : ∀ m d, a.index.method m = some d → d.id = m) (t : Task)
    (calls : List (MethodId × Location)) :
    (link a s).Sim (fun cs cs₀ => cs = cs₀.map (Child.endAt s.extraEntryPatterns))
      (Expansion.callersAt a t calls) (Expansion.callersAt a t calls) := by
  induction calls with
  | nil => exact .pure rfl
  | cons call calls ih =>
    refine (methodNode ha hids call.1 (some call.2)).bind (fun n n₀ hn => ?_)
    refine ih.bind (fun cs cs₀ hcs => .pure ?_)
    rw [hn, CallNode.key_endAt, Task.methodChild_endAt, hcs]
    split
    · rfl
    · rw [List.map_cons]

/-- What does not stand for a method is not ended. -/
theorem map_endAt_of_forall {cs : List Child} (h : ∀ c ∈ cs, c.isMethod = false) :
    cs = cs.map (Child.endAt s.extraEntryPatterns) := by
  rw [List.map_congr_left (fun c hc => Child.endAt_of_not_isMethod (h c hc)), List.map_id']

/-- Below each node the same children are shown, the callers whose owner matches as leaves. -/
theorem children (ha : a.Steady) (hids : ∀ m d, a.index.method m = some d → d.id = m) (t : Task) :
    ChildSimulation (SearchSimulation.settled a ha s { s with extraEntryPatterns := [] } ⟨rfl, rfl⟩)
      (link a s) (fun cs cs₀ => cs = cs₀.map (Child.endAt s.extraEntryPatterns)) t where
  lift hsim := hsim
  append hcs hds := by rw [hcs, hds, List.map_append]
  mappings := by
    rintro r r₀ ⟨hr, hr₀⟩ showDeclaring crossings
    rw [hr.settings, hr₀.settings]
    refine map_endAt_of_forall (fun c hc => ?_)
    obtain ⟨crossing, -, hchild⟩ := List.mem_filterMap.1 hc
    obtain ⟨-, rfl⟩ := Task.mappingChild?_eq_some hchild
    rfl
  accessors f xs := by
    refine map_endAt_of_forall (fun c hc => ?_)
    obtain ⟨x, -, hchild⟩ := List.mem_filterMap.1 hc
    obtain ⟨-, rfl⟩ := Task.accessorChild?_eq_some hchild
    rfl
  declaring m place := by
    refine (methodNode ha hids m place).bind (fun n n₀ hn => .pure ?_)
    rw [hn, CallNode.key_endAt, Task.methodChild_endAt]
    split
    · rfl
    · rfl
  callerChildren {refs refs'} _ hrefs := by
    refine Link.Sim.get.bind ?_
    rintro r r₀ ⟨hr, hr₀⟩
    simp only [hr.settings, hr₀.settings, CallerGroups.collect_congr hrefs]
    exact callersAt ha hids t _

end EntryPatterns

/-- Further entry points end some of the children that expanding a node gives. -/
theorem Expansion.found_endAt {a : IndexAccess} (ha : a.Steady)
    (hids : ∀ m d, a.index.method m = some d → d.id = m) (s : Settings) (t : Task) :
    found a s t = (found a { s with extraEntryPatterns := [] } t).map
      (List.map (Child.endAt s.extraEntryPatterns)) := by
  have hm := (EntryPatterns.children (s := s) ha hids t).children (fun _ _ he => he.elim) _ _
    ⟨Run.settled_fresh a s, Run.settled_fresh a _⟩
  rw [found, found, Analysis.outcome, Analysis.outcome]
  revert hm
  generalize (Expansion.children a t).runOn { settings := s } = p
  generalize (Expansion.children a t).runOn { settings := { s with extraEntryPatterns := [] } } = q
  intro hm
  cases hm with
  | ok hcs _ => exact congrArg some hcs
  | error _ _ => rfl
  | excused he => exact he.elim

/-! ### Trees -/

namespace Growth

mutual

/-- Each method below the node whose owner matches becomes an entry point without children. -/
def cutBelow (patterns : List String) : Growth → Growth
  | terminal n => terminal n
  | last n t => last n t
  | failed n t => failed n t
  | grown n t gs => grown n t (cutAll patterns gs)

/-- The same for nodes that may match themselves. -/
def cutAll (patterns : List String) : List Growth → List Growth
  | [] => []
  | g :: gs =>
    (if g.child.matchesOwner patterns then terminal g.node.asEntryPoint
      else cutBelow patterns g) :: cutAll patterns gs

end

theorem children_tree (g : Growth) : g.tree.children = g.kids.map tree := by
  cases g with
  | terminal n => rfl
  | last n t => rfl
  | failed n t => rfl
  | grown n t gs => rw [tree, Rose.children, forest_eq_map, kids]

theorem cutAll_eq_map (patterns : List String) (gs : List Growth) :
    cutAll patterns gs = gs.map (fun g =>
      if g.child.matchesOwner patterns then terminal g.node.asEntryPoint
      else cutBelow patterns g) := by
  induction gs with
  | nil => rfl
  | cons g gs ih => rw [cutAll, ih, List.map_cons]

theorem child_ofChild {grow : CallNode → Task → Growth}
    (h : ∀ n t, (grow n t).child = (n, some t)) (c : Child) : (ofChild grow c).child = c := by
  obtain ⟨n, task⟩ := c
  cases task with
  | none => rfl
  | some t => exact h n t

end Growth

theorem Expansion.child_growthOver (expand : Task → Option (List Child)) (remaining : Nat)
    (n : CallNode) (t : Task) : (growthOver expand remaining n t).child = (n, some t) := by
  cases remaining with
  | zero => rfl
  | succ remaining =>
    rw [growthOver]
    cases expand t with
    | none => rfl
    | some cs => rfl

/-- If expanding a node ends some of its children then growing cuts the tree there. -/
theorem Expansion.growthOver_cutBelow {patterns : List String}
    {expand expand₀ : Task → Option (List Child)}
    (h : ∀ t, expand t = (expand₀ t).map (List.map (Child.endAt patterns))) (remaining : Nat) :
    ∀ n t, growthOver expand remaining n t =
      (growthOver expand₀ remaining n t).cutBelow patterns := by
  induction remaining with
  | zero =>
    intro n t
    rfl
  | succ remaining ih =>
    intro n t
    rw [growthOver, growthOver, h t]
    cases expand₀ t with
    | none => rfl
    | some cs =>
      simp only [Option.map_some, List.map_map, Growth.cutBelow, Growth.cutAll_eq_map]
      congr 1
      apply List.map_congr_left
      intro c _
      have hchild := Growth.child_ofChild (child_growthOver expand₀ remaining) c
      have hnode : (Growth.ofChild (growthOver expand₀ remaining) c).node = c.1 :=
        congrArg Prod.fst hchild
      simp only [Function.comp_apply, hchild, hnode, Child.endAt]
      split
      next => rfl
      next =>
        obtain ⟨n', task⟩ := c
        cases task with
        | none => rfl
        | some t' => exact ih n' t'

theorem growthOfSeed_cutBelow (a : IndexAccess) {patterns : List String}
    {expand expand₀ : Task → Option (List Child)}
    (h : ∀ t, expand t = (expand₀ t).map (List.map (Child.endAt patterns))) (depth : Nat)
    (seed : FieldRef) :
    growthOfSeed a expand depth seed =
      (growthOfSeed a expand₀ depth seed).map (Growth.cutBelow patterns) := by
  unfold growthOfSeed
  cases a.seedFailure seed with
  | some e => rfl
  | none =>
    rcases rootChild a.index seed with ⟨n, _ | t⟩
    · rfl
    · exact congrArg Except.ok (Expansion.growthOver_cutBelow h depth n t)

/-! ### Where entry points stand -/

/-- A child stands for a method, or has the category of an accessor or of a mapping site. -/
theorem Task.Gives.category_cases {idx : Index} {s : Settings} {t : Task} {child : Child}
    (h : t.Gives idx s child) :
    (∃ m place, child = t.methodChild (idx.methodNode s m place) m) ∨
      child.1.category = .accessorGet ∨ child.1.category = .accessorSet ∨
        child.1.category = .mapping := by
  have haccessor : ∀ {f xs x context}, idx.accessors f = some xs → x ∈ xs →
      t.accessorChild? context x = some child →
        child.1.category = .accessorGet ∨ child.1.category = .accessorSet := by
    intro f xs x context hxs hx h
    obtain ⟨-, rfl⟩ := accessorChild?_eq_some h
    exact Index.category_of_mem_accessors hxs hx
  cases h with
  | caller => exact .inl ⟨_, _, rfl⟩
  | declaring => exact .inl ⟨_, _, rfl⟩
  | ownAccessor _ hxs hx h => exact .inr ((haccessor hxs hx h).imp_right .inl)
  | farAccessor _ hxs hx h => exact .inr ((haccessor hxs hx h).imp_right .inl)
  | mapping _ _ h =>
    obtain ⟨-, rfl⟩ := mappingChild?_eq_some h
    exact .inr (.inr (.inr rfl))

theorem Task.Gives.category_ne_root {idx : Index} {s : Settings} {t : Task} {child : Child}
    (h : t.Gives idx s child) : child.1.category ≠ .root := by
  obtain ⟨m, place, hchild⟩ | hget | hset | hmapping := h.category_cases
  · rw [hchild, Task.fst_methodChild]
    exact (idx.category_methodNode s m place).2
  · rw [hget]
    decide
  · rw [hset]
    decide
  · rw [hmapping]
    decide

/-- The trace ends at entry points. -/
theorem Task.Gives.task_of_entryPoint {idx : Index} {s : Settings} {t : Task} {child : Child}
    (h : t.Gives idx s child) (hentry : child.1.category = .entryPoint) : child.2 = none := by
  obtain ⟨m, place, hchild⟩ | hget | hset | hmapping := h.category_cases
  · rw [hchild, Task.fst_methodChild] at hentry
    rw [hchild, Task.methodChild, hentry]
    rfl
  · cases hget.symm.trans hentry
  · cases hset.symm.trans hentry
  · cases hmapping.symm.trans hentry

namespace Growth

variable {a : IndexAccess} {s : Settings} {seed : FieldRef} {g : Growth}

/-- No node below the root is a root. -/
theorem Grown.category_ne_root {remaining : Nat} (hg : g.Grown a s remaining) {x : Growth}
    (hx : x ∈ g.kids) {n : CallNode} (hn : n ∈ CallTree.nodes x.tree) : n.category ≠ .root := by
  obtain ⟨above, y, hat, rfl⟩ := exists_at_of_mem_nodes .here hn
  cases hat with
  | here =>
    obtain ⟨_, _, _, _, hgives⟩ := hg.gives hx
    exact hgives.category_ne_root
  | under hz hkid =>
    obtain ⟨_, hgrown⟩ := hg.at (.under .here hx)
    obtain ⟨_, hgrown⟩ := hgrown.at hz
    obtain ⟨_, _, _, _, hgives⟩ := hgrown.gives hkid
    exact hgives.category_ne_root

/-- Entry points are leaves. -/
theorem Grown.children_of_entryPoint {remaining : Nat} (hg : g.Grown a s remaining)
    (hroot : g.child = rootChild a.index seed) {t : CallTree} (ht : t ∈ g.tree.subtrees)
    (hentry : t.label.category = .entryPoint) : t.children = [] := by
  obtain ⟨above, y, hat, rfl⟩ := exists_at_of_mem_subtrees .here ht
  rw [label_tree] at hentry
  cases hat with
  | here =>
    -- the root is no entry point
    have hnode : g.node = (rootChild a.index seed).1 := congrArg Prod.fst hroot
    rw [hnode, category_rootChild] at hentry
    cases hentry
  | under hz hkid =>
    obtain ⟨_, hgrown⟩ := hg.at hz
    obtain ⟨_, _, _, _, hgives⟩ := hgrown.gives hkid
    have htask : y.task? = none := hgives.task_of_entryPoint hentry
    cases y with
    | terminal n => rfl
    | last | failed | grown => cases htask

end Growth

/-! ### Patterns cut -/

/-- With further patterns the tree over the index of a project is the tree without them, in which each
method whose owner matches has become an entry point without children. -/
theorem buildHierarchy_cutBelow {a : IndexAccess} (ha : a.Steady)
    (hids : ∀ m d, a.index.method m = some d → d.id = m) (seed : FieldRef) {r r₀ : Run}
    (hr : r.Sound a) (hr₀ : r₀.Sound a)
    (hsettings : r₀.settings = { r.settings with extraEntryPatterns := [] })
    (hcancel : (buildHierarchy a seed).Uncancelled r)
    (hcancel₀ : (buildHierarchy a seed).Uncancelled r₀) :
    ((buildHierarchy a seed).runOn r).1 =
      ((growthOf a seed).runOn r₀).1.map
        (fun g => (g.cutBelow r.settings.extraEntryPatterns).tree) := by
  have hdepth : r₀.settings.maxDepth = r.settings.maxDepth := by rw [hsettings]
  have hfound : ∀ t, Expansion.found a r.settings t = (Expansion.found a r₀.settings t).map
      (List.map (Child.endAt r.settings.extraEntryPatterns)) := by
    rw [hsettings]
    exact Expansion.found_endAt ha hids r.settings
  rw [buildHierarchy_eq_treeOfSeed ha hr seed hcancel, treeOfSeed,
    growthOf_eq_growthOfSeed ha hr₀ seed (growthOf_uncancelled hcancel₀), hdepth,
    growthOfSeed_cutBelow a hfound]
  cases growthOfSeed a (Expansion.found a r₀.settings) r.settings.maxDepth seed with
  | error e => rfl
  | ok g => rfl

/-- In every table of rules, however patterns for names are read, further patterns make entry points
of the methods of the owners that they match and change nothing else. Over a steady index of a
project the tree that is built with them is the tree that is built without them, in which each caller
whose owner matches has become an entry point without children; if there is no tree then for the same
reason. In every tree entry points are leaves and the root alone is a root, and where the index
answers and nobody cancels there is a tree. -/
theorem entryPatterns_only_cut :
    (∀ (rules : List CategoryRule) (patterns : List String) (m : MethodTraits)
      (fits : String → String → Bool),
      CategoryRule.classify (CategoryRule.withEntryPatterns rules patterns) m fits =
        if CategoryRule.matchesOwner patterns m.id.owner then .entryPoint
        else CategoryRule.classify rules m fits) ∧
    (∀ (files : List Syntax.SourceFile) (skipped : List String) (a : IndexAccess) (seed : FieldRef)
      (r r₀ : Run), a.index = Index.ofFiles files skipped → a.Steady → r.Sound a → r₀.Sound a →
      r₀.settings = { r.settings with extraEntryPatterns := [] } →
      (buildHierarchy a seed).Uncancelled r → (buildHierarchy a seed).Uncancelled r₀ →
        (∃ e, ((buildHierarchy a seed).runOn r).1 = .error e ∧
          ((buildHierarchy a seed).runOn r₀).1 = .error e) ∨
        ∃ g, ((growthOf a seed).runOn r₀).1 = .ok g ∧
          ((buildHierarchy a seed).runOn r₀).1 = .ok g.tree ∧
          ((buildHierarchy a seed).runOn r).1 =
            .ok (g.cutBelow r.settings.extraEntryPatterns).tree) ∧
    (∀ (a : IndexAccess) (seed : FieldRef) (r : Run), r.Sound a.faultless →
      ∀ tree r', (buildHierarchy a seed).runOn r = (.ok tree, r') →
        tree.label.category = .root ∧
        (∀ t ∈ tree.subtrees, t.label.category = .entryPoint → t.children = []) ∧
        ∀ kid ∈ tree.children, ∀ n ∈ CallTree.nodes kid, n.category ≠ .root) ∧
    ∀ (a : IndexAccess) (seed : FieldRef) (r : Run), (∀ n call, a.fails n call = none) →
      r.token.Quiet → ∃ tree r', (buildHierarchy a seed).runOn r = (.ok tree, r') := by
  refine ⟨fun rules patterns m fits => CategoryRule.classify_withEntryPatterns, ?_, ?_, ?_⟩
  · intro files skipped a seed r r₀ hindex ha hr hr₀ hsettings hcancel hcancel₀
    have hids : ∀ m d, a.index.method m = some d → d.id = m := by
      rw [hindex]
      exact fun m d hd => Index.id_of_method hd
    rw [buildHierarchy_cutBelow ha hids seed hr hr₀ hsettings hcancel hcancel₀,
      buildHierarchy_eq_growthOf, Analysis.runOn_bind]
    rcases (growthOf a seed).runOn r₀ with ⟨e | g, r'⟩
    · exact .inl ⟨e, rfl, rfl⟩
    · exact .inr ⟨g, rfl, rfl, rfl⟩
  · intro a seed r hr tree r' hrun
    obtain ⟨g, hgrowth, rfl⟩ := growthOf_of_buildHierarchy hrun
    obtain ⟨hgrown, hroot⟩ := growthOf_grown a seed ⟨rfl, hr⟩ g r' hgrowth
    refine ⟨?_, fun t ht => hgrown.children_of_entryPoint hroot ht, ?_⟩
    · rw [Growth.label_tree, show g.node = (rootChild a.index seed).1 from congrArg Prod.fst hroot,
        category_rootChild]
    · intro kid hkid
      rw [Growth.children_tree] at hkid
      obtain ⟨x, hx, rfl⟩ := List.mem_map.1 hkid
      exact fun n hn => hgrown.category_ne_root hx hn
  · intro a seed r hnone hquiet
    exact buildHierarchy_exists_ok_of_answers hnone hquiet seed

set_option maxRecDepth 100000 in
/-- The method that uses the field is made an entry point, and its caller is gone. -/
theorem entryPatterns_only_cut_counter :
    ∃ g, ((growthOf { index := Index.ofFiles [Counter.file] [] } Counter.seed).runOn {}).1 = .ok g ∧
      ((buildHierarchy { index := Index.ofFiles [Counter.file] [] } Counter.seed).runOn {}).1 =
        .ok g.tree ∧
      ((buildHierarchy { index := Index.ofFiles [Counter.file] [] } Counter.seed).runOn
        { settings := { extraEntryPatterns := ["", "COUNT"] } }).1 =
          .ok (g.cutBelow ["", "COUNT"]).tree ∧
      (CallTree.nodes g.tree).map (fun n => (n.name, n.category)) = [("count", .root),
        ("getCount", .accessorGet), ("setCount", .accessorSet), ("next", .plain),
        ("twice", .plain)] ∧
      (CallTree.nodes (g.cutBelow ["", "COUNT"]).tree).map (fun n => (n.name, n.category)) =
        [("count", .root), ("getCount", .accessorGet), ("setCount", .accessorSet),
          ("next", .entryPoint)] := by
  have hcalm : (({ index := Index.ofFiles [Counter.file] [] } : IndexAccess)).Calm := by
    rintro _ _ _ ⟨⟩
  have hfacts : ((growthOf { index := Index.ofFiles [Counter.file] [] } Counter.seed).runOn
      {}).1.toOption.map (fun g => ((CallTree.nodes g.tree).map (fun n => (n.name, n.category)),
        (CallTree.nodes (g.cutBelow ["", "COUNT"]).tree).map (fun n => (n.name, n.category)))) =
      some ([("count", .root), ("getCount", .accessorGet), ("setCount", .accessorSet),
        ("next", .plain), ("twice", .plain)], [("count", .root), ("getCount", .accessorGet),
          ("setCount", .accessorSet), ("next", .entryPoint)]) := by
    decide +kernel
  obtain ⟨e, -, he⟩ | ⟨g, hg, htree, hcut⟩ := entryPatterns_only_cut.2.1 [Counter.file] []
    { index := Index.ofFiles [Counter.file] [] } Counter.seed
    { settings := { extraEntryPatterns := ["", "COUNT"] } } {} rfl (fun _ _ => rfl)
    (Run.sound_of_empty rfl) (Run.sound_of_empty rfl) rfl
    (buildHierarchy_uncancelled hcalm Token.quiet_default _)
    (buildHierarchy_uncancelled hcalm Token.quiet_default _)
  · obtain ⟨tree, r', hrun⟩ := entryPatterns_only_cut.2.2.2
      { index := Index.ofFiles [Counter.file] [] } Counter.seed {} (fun _ _ => rfl)
      Token.quiet_default
    rw [hrun] at he
    cases he
  · rw [hg] at hfacts
    obtain ⟨hnodes, hcutNodes⟩ := Prod.mk.inj (Option.some.inj hfacts)
    exact ⟨g, hg, htree, hcut, hnodes, hcutNodes⟩

end FieldTrace
