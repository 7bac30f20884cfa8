import FieldTrace.Proofs.Growth
import Mathlib.Data.List.Forall2

/-! # Faults only prune

An expansion that succeeds in spite of faults finds what it finds without them, since no failure is
passed over on the way; the one exception is the root, which makes do without the users of the field
if these cannot be found. A failed expansion leaves a node without children and the run as good as
before. So a tree that is built over a failing index is the tree without faults, less the children
of the nodes whose expansion failed and, at the root, perhaps the users of the field. -/

namespace FieldTrace

/-! ### Analyses that cannot fail without faults -/

namespace Analysis.OnlyCancels

variable {α : Type}

/-- An index without faults always answers. -/
protected theorem ask (a : IndexAccess) (call : IndexCall) (answer : α) :
    OnlyCancels (a.faultless.ask call answer) := by
  intro r e r' hrun
  rw [runOn_ask] at hrun
  cases hrun

protected theorem get : OnlyCancels get := by
  rintro _ _ _ ⟨⟩

/-- What only cancellation can end has an answer if nobody cancels. -/
theorem exists_ok {x : Analysis α} (h : OnlyCancels x) {r : Run} (hr : x.Uncancelled r) :
    ∃ v r', runOn r x = (.ok v, r') := by
  rcases hrun : runOn r x with ⟨e | v, r'⟩
  · have hcancel := h r e r' hrun
    rw [hr e r' hrun] at hcancel
    cases hcancel
  · exact ⟨v, r', rfl⟩

end Analysis.OnlyCancels

namespace IndexAccess

variable {α β : Type} {a : IndexAccess} {s : Settings}

theorem faultless_calm (a : IndexAccess) : a.faultless.Calm := by
  rintro _ _ _ ⟨⟩

theorem faultless_steady (a : IndexAccess) : a.faultless.Steady := fun _ _ => rfl

/-- The outcome of a sequence is that of its second part. -/
theorem Determines.outcome_bind {x : Analysis α} {f : α → Analysis β} {v : α}
    (hx : a.Determines s x) (hv : x.outcome s = .ok v) (hf : a.Determines s (f v)) :
    (x >>= f).outcome s = (f v).outcome s := by
  obtain ⟨r₁, hfirst, hr₁⟩ := hx _ (Run.settled_fresh a s)
  obtain ⟨r₂, hsecond, -⟩ := hf r₁ hr₁
  rw [hv] at hfirst
  unfold Analysis.outcome at hsecond ⊢
  rw [Analysis.runOn_bind_ok _ hfirst, hsecond]

end IndexAccess

theorem Analysis.outcome_attempt {α : Type} {x : Analysis α} {s : Settings} {v : α}
    (h : x.outcome s = .ok v) : (attempt x).outcome s = .ok (some v) := by
  unfold outcome at h ⊢
  rw [runOn_attempt]
  rcases hrun : runOn { settings := s } x with ⟨res, r'⟩
  rw [hrun] at h
  cases h
  rfl

/-! ### The two halves of the root -/

/-- The child stands for a method, or the trace ends at it. -/
def Child.ForMethod (c : Child) : Prop := ∀ t, c.2 = some t → ∃ m, t.step = .method m

namespace Expansion

/-- What is known of the root before the users of its field are looked up: the children for
crossings and accessors, the field, and which methods are accessors. -/
structure Front where
  found : List Child
  field : FieldRef
  isAccessor : MethodId → Bool

/-- The first half of the root. -/
def front (a : IndexAccess) (t : Task) : Analysis Front := do
  let f := t.context
  let crossings ← Crossings.of a f.declaringType f.name none
  let mappings := (limitCrossings (← get).settings.mappingSiteLimit crossings).filterMap
    (t.mappingChild? true)
  let accessors ← Accessor.of a f
  let decl ← a.fieldOn f.declaringType f.name
  let owners := f.declaringType :: (decl.map FieldDecl.declaringType).toList
  return {
    found := mappings ++ accessors.filterMap (t.accessorChild? f)
    field := (decl.map FieldDecl.ref).getD f
    isAccessor := fun m =>
      owners.contains m.owner && (accessors.map Accessor.name).contains m.name }

/-- The second half of the root, once the users of the field have been looked up. -/
def withUsers (a : IndexAccess) (t : Task) (f : Front) : Option (List Reference) →
    Analysis (List Child)
  | none => return f.found
  | some users => do
    let direct := users.filter (fun r => r.enclosing.any (fun m => !f.isAccessor m))
    return f.found ++ (← callerChildren a t direct)

theorem root_eq (a : IndexAccess) (t : Task) :
    root a t = front a t >>= fun f =>
      Analysis.attempt (fieldUsers a f.field) >>= fun users => withUsers a t f users := by
  simp only [root, front, bind_assoc, pure_bind]
  rfl

end Expansion

namespace Simulation

variable {a : IndexAccess} {plan : FaultPlan} (S : Simulation a plan)

theorem front (t : Task) :
    S.Sim Eq (Expansion.front a t) (Expansion.front (a.withFaults plan) t) := by
  refine (S.crossings _ _ _).bindEq (fun crossings => ?_)
  refine Link.Sim.get.bind (fun r r' hr => ?_)
  rw [(S.settings hr).mappingSiteLimit]
  refine (S.accessorsOf _).bindEq (fun accessors => ?_)
  exact Link.Sim.bindEq (S.ask _ _) (fun decl => .pure rfl)

theorem withUsers (t : Task) (f : Expansion.Front) (users : Option (List Reference)) :
    S.Sim Eq (Expansion.withUsers a t f users)
      (Expansion.withUsers (a.withFaults plan) t f users) := by
  cases users with
  | none => exact .pure rfl
  | some users => exact (S.callerChildren t (SameGroups.refl _)).bindEq (fun _ => .pure rfl)

end Simulation

namespace Expansion

variable {a : IndexAccess} {s : Settings} {t : Task} {r r' : Run} {cs : List Child}

/-- The children before the users of the field stand for crossings and accessors. -/
theorem front_notForMethod (a : IndexAccess) (t : Task) (r : Run) :
    Analysis.Yields r (front a t) (fun f _ => ∀ c ∈ f.found, ¬ Child.ForMethod c) := by
  refine .bind .any (fun crossings _ _ => .bind .any (fun run _ _ => .bind .any
    (fun accessors _ _ => .bind .any (fun decl _ _ => .pure (List.forall_mem_append.2 ⟨?_, ?_⟩)))))
  · intro child hchild hmethod
    obtain ⟨c, -, hc⟩ := List.mem_filterMap.1 hchild
    obtain ⟨-, rfl⟩ := Task.mappingChild?_eq_some hc
    obtain ⟨m, hm⟩ := hmethod _ rfl
    cases hm
  · intro child hchild hmethod
    obtain ⟨x, -, hx⟩ := List.mem_filterMap.1 hchild
    obtain ⟨-, rfl⟩ := Task.accessorChild?_eq_some hx
    obtain ⟨m, hm⟩ := hmethod _ rfl
    cases hm

theorem callerChildren_forMethod (a : IndexAccess) (t : Task) (refs : List Reference) (r : Run) :
    Analysis.Yields r (callerChildren a t refs) (fun cs _ => ∀ c ∈ cs, Child.ForMethod c) := by
  refine (callerChildren_methods t refs r).mono (fun cs _ h c hc t' ht' => ?_)
  obtain ⟨n, m, -, rfl⟩ := h c hc
  unfold Task.methodChild at ht'
  split at ht'
  · cases ht'
  · cases ht'
    exact ⟨m, rfl⟩

/-! ### What expansions find -/

/-- Without faults the users of a field can be looked up. -/
theorem fieldUsers_outcome (a : IndexAccess) (s : Settings) (f : FieldRef) :
    (fieldUsers a.faultless f).outcome s = .ok (a.index.fieldReferences f) := rfl

theorem callersAt_onlyCancels (a : IndexAccess) (t : Task) (pairs : List (MethodId × Location)) :
    (callersAt a.faultless t pairs).OnlyCancels := by
  induction pairs with
  | nil => exact .pure _
  | cons pair pairs ih =>
    have hnode : (methodNode a.faultless pair.1 (some pair.2)).OnlyCancels :=
      .bind (.ask a _ _) (fun _ => .bind .get (fun _ => .pure _))
    exact hnode.bind (fun _ => ih.bind (fun _ => .pure _))

/-- Without faults the callers can be shown. -/
theorem callerChildren_outcome (a : IndexAccess) (s : Settings) (t : Task)
    (refs : List Reference) :
    ∃ cs, (callerChildren a.faultless t refs).outcome s = .ok cs := by
  have hcancels : (callerChildren a.faultless t refs).OnlyCancels :=
    .bind .get (fun _ => callersAt_onlyCancels a t _)
  have hsim := (Simulation.keeping a.faultless_calm.stable).callerChildren t (SameGroups.refl refs)
  have hfresh : Token.Quiet ({ settings := s } : Run).token := Token.quiet_default
  obtain ⟨cs, r', hrun⟩ := hcancels.exists_ok (Link.Sim.uncancelled hsim hfresh)
  exact ⟨cs, by rw [Analysis.outcome, hrun]⟩

/-- Without faults the root has its first children and those for the users of its field. -/
theorem root_outcome {f : Front} {users : List Reference} {callers : List Child}
    (hfront : (front a.faultless t).outcome s = .ok f)
    (husers : (fieldUsers a.faultless f.field).outcome s = .ok users)
    (hcallers : (callerChildren a.faultless t (users.filter (fun r =>
      r.enclosing.any (fun m => !f.isAccessor m)))).outcome s = .ok callers) :
    (root a.faultless t).outcome s = .ok (f.found ++ callers) := by
  let S := Simulation.settled a.faultless a.faultless_steady s
  have hstrict : S.Strict := fun _ _ he => he.elim
  have hattempt : S.Sim Eq (Analysis.attempt (fieldUsers a.faultless f.field))
      (Analysis.attempt (fieldUsers a.faultless f.field)) :=
    .attempt hstrict (S.fieldUsers f.field)
  have hrest : S.Sim Eq
      (Analysis.attempt (fieldUsers a.faultless f.field) >>= withUsers a.faultless t f)
      (Analysis.attempt (fieldUsers a.faultless f.field) >>= withUsers a.faultless t f) :=
    hattempt.bindEq (S.withUsers t f)
  have hcallerChildren := S.callerChildren t (SameGroups.refl
    (users.filter (fun r => r.enclosing.any (fun m => !f.isAccessor m))))
  calc (root a.faultless t).outcome s
      = (Analysis.attempt (fieldUsers a.faultless f.field) >>= fun users =>
          withUsers a.faultless t f users).outcome s := by
        rw [root_eq, (Link.Sim.determines (S.front t)).outcome_bind hfront hrest.determines]
    _ = (withUsers a.faultless t f (some users)).outcome s :=
        hattempt.determines.outcome_bind (Analysis.outcome_attempt husers)
          (Link.Sim.determines (S.withUsers t f (some users)))
    _ = .ok (f.found ++ callers) :=
        (Link.Sim.determines hcallerChildren).outcome_bind hcallers
          (fun r hr => ⟨r, rfl, hr⟩)

/-- The root has the children that it has without faults, or only those before the users of the
field. -/
theorem root_cases (hr : r.Faithful a s) (hrun : (root a t).runOn r = (.ok cs, r')) :
    (root a.faultless t).outcome s = .ok cs ∨
      ∃ users, (root a.faultless t).outcome s = .ok (cs ++ users) ∧
        (∀ c ∈ cs, ¬ Child.ForMethod c) ∧ ∀ c ∈ users, Child.ForMethod c := by
  let S := Simulation.refined a a.faultless_mayFail s
  rw [root_eq] at hrun
  obtain ⟨f, r₁, hf, hrun⟩ := (Analysis.runOn_bind_eq_ok r).1 hrun
  obtain ⟨users, r₂, husers, hrun⟩ := (Analysis.runOn_bind_eq_ok r₁).1 hrun
  obtain ⟨hfront, hr₁⟩ := (Link.Sim.refines (S.front t)).outcome_eq_ok hf hr
  obtain ⟨res, hres, rfl, -⟩ := Analysis.runOn_attempt_eq_ok r₁ husers
  cases res with
  | ok users =>
    obtain ⟨callers, r₃, hcallers, hpure⟩ := (Analysis.runOn_bind_eq_ok r₂).1 hrun
    cases hpure
    obtain ⟨husers', hr₂⟩ := (Link.Sim.refines (S.fieldUsers f.field)).outcome_eq_ok hres hr₁
    obtain ⟨hcallers', -⟩ := (Link.Sim.refines
      (S.callerChildren t (SameGroups.refl _))).outcome_eq_ok hcallers hr₂
    exact .inl (root_outcome hfront husers' hcallers')
  | error e =>
    cases hrun
    obtain ⟨callers, hcallers⟩ := callerChildren_outcome a s t
      ((a.index.fieldReferences f.field).filter (fun r =>
        r.enclosing.any (fun m => !f.isAccessor m)))
    refine .inr ⟨callers, root_outcome hfront (fieldUsers_outcome a s f.field) hcallers,
      front_notForMethod a t r f r₁ hf, ?_⟩
    refine callerChildren_forMethod a.faultless t _ { settings := s } callers _
      (Prod.ext hcallers rfl)

/-- An expansion that succeeds in spite of faults finds what it finds without them, except that the
root may lack the users of its field. -/
theorem children_cases (hr : r.Faithful a s) (hrun : (children a t).runOn r = (.ok cs, r')) :
    (children a.faultless t).outcome s = .ok cs ∨
      t.step = .root ∧ ∃ users, (children a.faultless t).outcome s = .ok (cs ++ users) ∧
        (∀ c ∈ cs, ¬ Child.ForMethod c) ∧ ∀ c ∈ users, Child.ForMethod c := by
  let S := Simulation.refined a a.faultless_mayFail s
  unfold children at hrun ⊢
  cases hstep : t.step with
  | root =>
    rw [hstep] at hrun
    obtain hwhole | hfront := root_cases hr hrun
    · exact .inl hwhole
    · exact .inr ⟨rfl, hfront⟩
  | mapping c showDeclaring =>
    rw [hstep] at hrun
    exact .inl ((Link.Sim.refines ((S.sameChildren t).mapping c showDeclaring)).outcome_eq_ok hrun hr).1
  | accessor x =>
    rw [hstep] at hrun
    exact .inl ((Link.Sim.refines ((S.sameChildren t).accessor hstep)).outcome_eq_ok hrun hr).1
  | method m =>
    rw [hstep] at hrun
    exact .inl ((Link.Sim.refines ((S.sameChildren t).method hstep)).outcome_eq_ok hrun hr).1

/-- Without faults an expansion ends with its outcome. -/
theorem children_faultless {res : Except Failure (List Child)} (hr : r.Faithful a.faultless s)
    (hrun : (children a.faultless t).runOn r = (res, r'))
    (hres : ∀ e, res = .error e → e.isCancellation = false) :
    (children a.faultless t).outcome s = res :=
  ((a.faultless_steady.reproduces_children t).eq_outcome hrun hr.1 hr.2 hres).1.symm

end Expansion

/-! ### Pruned growths -/

namespace Growth

/-- The growth has lost the children of its failed nodes, and is the same otherwise. -/
inductive PrunedFrom : Growth → Growth → Prop where
  | terminal (n : CallNode) : PrunedFrom (.terminal n) (.terminal n)
  | last (n : CallNode) (t : Task) : PrunedFrom (.last n t) (.last n t)
  | failed {n : CallNode} {t : Task} {full : Growth} (h : full.child = (n, some t)) :
    PrunedFrom (.failed n t) full
  | grown {kids full : List Growth} (n : CallNode) (t : Task)
    (h : List.Forall₂ PrunedFrom kids full) : PrunedFrom (.grown n t kids) (.grown n t full)

/-- The same for a whole tree, whose root may also lack its last children, those for methods. -/
inductive RootPrunedFrom : Growth → Growth → Prop where
  | whole {g full : Growth} (h : g.PrunedFrom full) : RootPrunedFrom g full
  | withoutUsers {kids front users : List Growth} (n : CallNode) (t : Task)
    (h : List.Forall₂ PrunedFrom kids front)
    (hfront : ∀ x ∈ front, ¬ Child.ForMethod x.child)
    (husers : ∀ x ∈ users, Child.ForMethod x.child) :
    RootPrunedFrom (.grown n t kids) (.grown n t (front ++ users))

/-- Growths of the same children are related if those of each child are. -/
theorem forall₂_of_map_child {R : Growth → Growth → Prop} {gs full : List Growth}
    (h : gs.map child = full.map child)
    (hR : ∀ g ∈ gs, ∀ x ∈ full, g.child = x.child → R g x) : List.Forall₂ R gs full := by
  induction gs generalizing full with
  | nil =>
    cases full with
    | nil => exact .nil
    | cons x full => simp at h
  | cons g gs ih =>
    cases full with
    | nil => simp at h
    | cons x full =>
      obtain ⟨hhead, htail⟩ := List.cons.inj h
      refine .cons (hR g (by simp) x (by simp) hhead) (ih htail (fun g hg x hx => ?_))
      exact hR g (by simp [hg]) x (by simp [hx])

variable {a : IndexAccess} {s : Settings}

/-- A growth without faults of a node that is expanded. -/
theorem Grown.faultless_cases {remaining : Nat} {full : Growth} {n : CallNode} {t : Task}
    (h : full.Grown a.faultless s (remaining + 1)) (hchild : full.child = (n, some t)) :
    (full = .failed n t ∧ ∃ e, (Expansion.children a.faultless t).outcome s = .error e) ∨
      ∃ kids, full = .grown n t kids ∧
        (Expansion.children a.faultless t).outcome s = .ok (kids.map child) ∧
        ∀ kid ∈ kids, kid.Grown a.faultless s remaining := by
  cases h with
  | terminal => cases hchild
  | failed n' hr hrun he =>
    cases hchild
    exact .inl ⟨rfl, _, Expansion.children_faultless hr hrun (by rintro _ ⟨⟩; exact he)⟩
  | grown n' hr hrun hkids =>
    cases hchild
    exact .inr ⟨_, rfl, Expansion.children_faultless hr hrun nofun, hkids⟩

/-- No child of an expanded node stands for the root. -/
theorem step_ne_root_of_mem {t : Task} {r r' : Run} {kids : List Growth}
    (hrun : (Expansion.children a t).runOn r = (.ok (kids.map child), r')) {kid : Growth}
    (hkid : kid ∈ kids) : ∀ n t' kids', kid = .grown n t' kids' → t'.step ≠ .root := by
  rintro n t' kids' rfl
  exact (Expansion.children_offers t r _ _ hrun _ (List.mem_map_of_mem hkid)).step_ne_root rfl

/-- Below the root every node keeps all its children or none. -/
theorem Grown.prunedFrom {remaining : Nat} {g : Growth} (hg : g.Grown a s remaining) :
    (∀ n t kids, g = .grown n t kids → t.step ≠ .root) →
      ∀ full, full.Grown a.faultless s remaining → g.child = full.child → g.PrunedFrom full := by
  induction hg with
  | terminal remaining n =>
    intro _ full hfull hchild
    cases hfull with
    | terminal =>
      cases hchild
      exact .terminal n
    | last | failed | grown => cases hchild
  | last n t =>
    intro _ full hfull hchild
    cases hfull with
    | terminal => cases hchild
    | last =>
      cases hchild
      exact .last n t
  | failed n _ _ _ =>
    intro _ full _ hchild
    exact .failed hchild.symm
  | @grown remaining t r r' kids n hr hrun hkids ih =>
    intro hstep full hfull hchild
    have hwhole := (Expansion.children_cases hr hrun).resolve_right
      (fun h => hstep n t kids rfl h.1)
    obtain ⟨rfl, e, hout⟩ | ⟨fullKids, rfl, hout, hfullKids⟩ := hfull.faultless_cases hchild.symm
    · rw [hwhole] at hout
      cases hout
    · rw [hwhole] at hout
      refine .grown n t (forall₂_of_map_child (Except.ok.inj hout) (fun kid hkid x hx heq => ?_))
      exact ih kid hkid (step_ne_root_of_mem hrun hkid) x (hfullKids x hx) heq

/-- At the root the users of the field may be lost alone. -/
theorem Grown.rootPrunedFrom {remaining : Nat} {g full : Growth} (hg : g.Grown a s remaining)
    (hfull : full.Grown a.faultless s remaining) (hchild : g.child = full.child) :
    g.RootPrunedFrom full := by
  cases hg with
  | terminal n =>
    exact .whole ((Grown.terminal _ _).prunedFrom (by rintro _ _ _ ⟨⟩) full hfull hchild)
  | last n t => exact .whole ((Grown.last n t).prunedFrom (by rintro _ _ _ ⟨⟩) full hfull hchild)
  | failed n hr hrun he => exact .whole (.failed hchild.symm)
  | @grown remaining t r r' kids n hr hrun hkids =>
    -- the children that are left are pruned from those that they are without faults
    have hpruned : ∀ front, (∀ x ∈ front, x.Grown a.faultless s remaining) →
        kids.map child = front.map child → List.Forall₂ PrunedFrom kids front := by
      intro front hfront hmap
      refine forall₂_of_map_child hmap (fun kid hkid x hx heq => ?_)
      exact (hkids kid hkid).prunedFrom (step_ne_root_of_mem hrun hkid) x (hfront x hx) heq
    obtain ⟨rfl, e, hout⟩ | ⟨fullKids, rfl, hout, hfullKids⟩ := hfull.faultless_cases hchild.symm
    · obtain hwhole | ⟨-, users, hfront, -⟩ := Expansion.children_cases hr hrun
      · rw [hwhole] at hout
        cases hout
      · rw [hfront] at hout
        cases hout
    · obtain hwhole | ⟨-, users, hfront, hfound, husers⟩ := Expansion.children_cases hr hrun
      · rw [hwhole] at hout
        exact .whole (.grown n t (hpruned fullKids hfullKids (Except.ok.inj hout)))
      · rw [hfront] at hout
        obtain ⟨front, rest, rfl, hmap, rfl⟩ := List.map_eq_append_iff.1 (Except.ok.inj hout).symm
        obtain ⟨hfrontKids, -⟩ := List.forall_mem_append.1 hfullKids
        refine .withoutUsers n t (hpruned front hfrontKids hmap.symm) ?_ ?_
        · intro x hx
          exact hfound _ (hmap ▸ List.mem_map_of_mem hx)
        · intro x hx
          exact husers _ (List.mem_map_of_mem hx)

end Growth

/-! ### Building over a failing index -/

/-- If nobody cancels and the seed can be looked up, a tree is built. -/
theorem buildHierarchy_exists_ok {a : IndexAccess} (ha : a.Calm) {r : Run} (hr : r.token.Quiet)
    (seed : FieldRef) (hresolve : a.fails r.indexCalls (.resolveType seed.declaringType) = none)
    (hfield : ∀ type, a.index.resolveType seed.declaringType = some type →
      a.fails (r.indexCalls + 1) (.fieldOn type seed.name) = none) :
    ∃ tree r', (buildHierarchy a seed).runOn r = (.ok tree, r') := by
  rcases hrun : (buildHierarchy a seed).runOn r with ⟨e | tree, r'⟩
  · exfalso
    have hcancel := buildHierarchy_uncancelled ha hr seed e r' hrun
    have hpoll : (Analysis.checkpoint).runOn r = (.ok (), { r with token := r.token.poll }) := by
      rw [Analysis.runOn_checkpoint, hr.poll.isCancelled]
      rfl
    rw [buildHierarchy_eq, hierarchyByRecursion, Analysis.runOn_bind_ok r hpoll,
      Analysis.runOn_bind_ok _ (by rw [IndexAccess.resolveType, Analysis.runOn_ask,
        hresolve])] at hrun
    cases hfilter : (a.index.resolveType seed.declaringType).filter (fun t => t ≠ "") with
    | none =>
      rw [hfilter] at hrun
      cases hrun
    | some type =>
      have htype := (Option.filter_eq_some_iff.1 hfilter).1
      simp only [hfilter] at hrun
      rw [Analysis.runOn_bind_ok _ (by rw [IndexAccess.fieldOn, Analysis.runOn_ask,
        hfield type htype])] at hrun
      cases hfound : a.index.types.fieldOn type seed.name with
      | none =>
        rw [hfound] at hrun
        cases hrun
      | some field =>
        simp only [hfound] at hrun
        -- from here on only a cancellation could end the analysis
        have hcancels : (get >>= fun run => Expansion.below a run.settings.maxDepth
            (Task.ofSeed type seed) >>= fun kids =>
              pure (Rose.node (rootNode type seed (some field)) kids)).OnlyCancels :=
          .bind .get (fun _ => (Expansion.below_onlyCancels _ _).bind (fun _ => .pure _))
        rw [hcancels _ _ _ hrun] at hcancel
        cases hcancel
  · exact ⟨tree, r', rfl⟩

/-- If nobody cancels and the index always answers, a tree is built. -/
theorem buildHierarchy_exists_ok_of_answers {a : IndexAccess}
    (ha : ∀ n call, a.fails n call = none) {r : Run} (hr : r.token.Quiet) (seed : FieldRef) :
    ∃ tree r', (buildHierarchy a seed).runOn r = (.ok tree, r') := by
  have hcalm : a.Calm := by
    intro n call e he
    rw [ha] at he
    cases he
  exact buildHierarchy_exists_ok hcalm hr seed (ha _ _) (fun _ _ => ha _ _)

/-- Over an index that fails in any way but by cancellation, and from a run that remembers outcomes
only, a tree is built if the seed can be looked up. It is the tree that a fresh run builds without
the faults, less the children of the nodes whose expansion failed and perhaps the last children of
the root, those for the users of the field. -/
theorem buildHierarchy_prunes {a : IndexAccess} (ha : a.Calm) {r : Run} (hr : r.token.Quiet)
    (hsound : r.Sound a.faultless) (seed : FieldRef)
    (hresolve : a.fails r.indexCalls (.resolveType seed.declaringType) = none)
    (hfield : ∀ type, a.index.resolveType seed.declaringType = some type →
      a.fails (r.indexCalls + 1) (.fieldOn type seed.name) = none) :
    ∃ g full r', (buildHierarchy a seed).runOn r = (.ok g.tree, r') ∧
      (growthOf a seed).runOn r = (.ok g, r') ∧
      (buildHierarchy a.faultless seed).outcome r.settings = .ok full.tree ∧
      g.RootPrunedFrom full := by
  obtain ⟨tree, r', hrun⟩ := buildHierarchy_exists_ok ha hr seed hresolve hfield
  obtain ⟨g, hg, rfl⟩ := growthOf_of_buildHierarchy hrun
  obtain ⟨fullTree, r'', hfullRun⟩ := buildHierarchy_exists_ok a.faultless_calm
    (r := { settings := r.settings }) Token.quiet_default seed rfl (fun _ _ => rfl)
  obtain ⟨full, hfull, rfl⟩ := growthOf_of_buildHierarchy hfullRun
  have hfresh : ({ settings := r.settings } : Run).Faithful a.faultless r.settings :=
    ⟨rfl, Run.sound_of_empty rfl⟩
  obtain ⟨hgrown, hchild⟩ := growthOf_grown a seed (s := r.settings) ⟨rfl, hsound⟩ g r' hg
  obtain ⟨hfullGrown, hfullChild⟩ := growthOf_grown a.faultless seed hfresh full r'' hfull
  refine ⟨g, full, r', hrun, hg, by rw [Analysis.outcome, hfullRun], ?_⟩
  exact hgrown.rootPrunedFrom hfullGrown (hchild.trans hfullChild.symm)

namespace Orders

/-- A report uses the field directly; neither that nor the callers of `convert` can be found. -/
def failing : IndexAccess where
  index := { index with
    fieldUses := .ofList [(seed, [⟨some ⟨"Report", "print", []⟩, ⟨"Report.java", 7⟩⟩])] }
  fails _ call :=
    if call = .fieldReferences seed || call = .callersOf convert then some (.broken "no answer")
    else none

theorem failing_calm : failing.Calm := by
  intro n call e he
  simp only [failing] at he
  split at he
  · cases he
    rfl
  · cases he

end Orders

/-- The report and the caller of `convert` are missing. -/
theorem buildHierarchy_prunes_orders :
    ∃ (g full : Growth) (r' : Run),
      (buildHierarchy Orders.failing Orders.seed).runOn {} = (.ok g.tree, r') ∧
      (buildHierarchy Orders.failing.faultless Orders.seed).outcome {} = .ok full.tree ∧
      g.RootPrunedFrom full ∧ g.tree.size = 7 ∧ full.tree.size = 9 := by
  obtain ⟨g, full, r', hrun, -, hfull, hpruned⟩ := buildHierarchy_prunes Orders.failing_calm
    (r := {}) Token.quiet_default (Run.sound_of_empty rfl) Orders.seed rfl (fun _ _ => rfl)
  have hsize : ((buildHierarchy Orders.failing Orders.seed).runOn {}).1.toOption.map Rose.size =
      some 7 := by
    rw [buildHierarchy_eq]
    decide +kernel
  have hfullSize : ((buildHierarchy Orders.failing.faultless Orders.seed).outcome {}).toOption.map
      Rose.size = some 9 := by
    rw [buildHierarchy_eq]
    decide +kernel
  rw [hrun] at hsize
  rw [hfull] at hfullSize
  exact ⟨g, full, r', hrun, hfull, hpruned, Option.some.inj hsize, Option.some.inj hfullSize⟩

end FieldTrace
