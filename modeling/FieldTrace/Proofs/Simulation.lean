import FieldTrace.Proofs.Link

/-! # Simulations reach all that finds children

Every function that finds the children of a node is built from the basic operations, so each of them
respects every simulation; this is proved once for each function. What depends on the cache, on the
token, on faults or on the way callers are searched is then obtained by naming the right link. For
the children themselves it is left open how those of the two sides are related. The first use is
that settings and counters are left alone. -/

namespace FieldTrace

namespace SearchSimulation

variable {a : IndexAccess} {plan : FaultPlan} (S : SearchSimulation a plan)

/-! ### Mapping sites -/

theorem sitesFrom (sites : List MappingSite) (calls : List CallSite) :
    S.Sim Eq (Detection.sitesFrom sites calls) (Detection.sitesFrom sites calls) := by
  induction calls generalizing sites with
  | nil => exact .pure rfl
  | cons c calls ih => exact S.checkpoint.bindEq (fun _ => ih _)

theorem searchProject :
    S.Sim Eq (Detection.searchProject a) (Detection.searchProject (a.withFaults plan)) :=
  (S.ask _ _).bindEq (fun calls => S.sitesFrom [] calls)

theorem inProject : S.Sim Eq (Detection.inProject a) (Detection.inProject (a.withFaults plan)) :=
  S.cached .projectSites S.searchProject

theorem searchType (type : String) :
    S.Sim Eq (Detection.searchType a type) (Detection.searchType (a.withFaults plan) type) :=
  S.inProject.bindEq (fun _ => .pure rfl)

theorem ofType (type : String) :
    S.Sim Eq (Detection.ofType a type) (Detection.ofType (a.withFaults plan) type) :=
  S.cached (.typeSites type) (S.searchType type)

theorem searchMethod (m : MethodId) :
    S.Sim Eq (Detection.searchMethod a m) (Detection.searchMethod (a.withFaults plan) m) :=
  (S.ask _ _).bindEq (fun _ => S.sitesFrom [] _)

theorem inMethod (m : MethodId) :
    S.Sim Eq (Detection.inMethod a m) (Detection.inMethod (a.withFaults plan) m) :=
  S.cached (.methodSites m) (S.searchMethod m)

/-! ### Crossings -/

theorem sitesFor (type : String) (within : Option MethodId) :
    S.Sim Eq (Crossings.sitesFor a type within)
      (Crossings.sitesFor (a.withFaults plan) type within) := by
  cases within with
  | none => exact S.ofType type
  | some m => exact (S.inMethod m).bindEq (fun _ => .pure rfl)

theorem sharesFieldName (first second : String) :
    S.Sim Eq (Crossings.sharesFieldName a first second)
      (Crossings.sharesFieldName (a.withFaults plan) first second) := by
  refine Link.Sim.bindEq (S.ask _ _) (fun fields => ?_)
  by_cases h : (fields.map FieldRef.name).isEmpty = true
  · simp only [h, if_true]
    exact .pure rfl
  · simp only [h, Bool.false_eq_true, if_false]
    exact (S.ask _ _).bindEq (fun _ => .pure rfl)

theorem directAt (type field : String) (site : MappingSite) :
    S.Sim Eq (Crossings.directAt a type field site)
      (Crossings.directAt (a.withFaults plan) type field site) := by
  unfold Crossings.directAt
  cases Crossings.otherSide type site with
  | none => exact .pure rfl
  | some other =>
    refine Link.Sim.bindEq (S.ask _ _) (fun found => ?_)
    cases found <;> exact .pure rfl

theorem nestedAt (type : String) (holder : FieldDecl) (site : MappingSite) :
    S.Sim Eq (Crossings.nestedAt a type holder site)
      (Crossings.nestedAt (a.withFaults plan) type holder site) := by
  unfold Crossings.nestedAt
  cases Crossings.otherSide holder.declaringType site with
  | none => exact .pure rfl
  | some other =>
    refine Link.Sim.bindEq (S.ask _ _) (fun found => ?_)
    cases found with
    | none => exact .pure rfl
    | some counterpart =>
      refine (S.sharesFieldName type _).bindEq (fun shares => ?_)
      cases shares <;> exact .pure rfl

theorem collect {α : Type} {step step' : α → Analysis (List Crossing)}
    (h : ∀ x, S.Sim Eq (step x) (step' x)) (xs : List α) :
    S.Sim Eq (Crossings.collect step xs) (Crossings.collect step' xs) := by
  induction xs with
  | nil => exact .pure rfl
  | cons x xs ih => exact (h x).bindEq (fun _ => ih.bindEq (fun _ => .pure rfl))

theorem direct (type field : String) (within : Option MethodId) :
    S.Sim Eq (Crossings.direct a type field within)
      (Crossings.direct (a.withFaults plan) type field within) := by
  refine Link.Sim.bindEq (S.ask _ _) (fun found => ?_)
  cases found with
  | none => exact .pure rfl
  | some _ =>
    refine (S.sitesFor type within).bindEq (fun sites => ?_)
    exact S.collect (fun s => (S.directAt type field s).bindEq (fun _ => .pure rfl)) sites

theorem nested (type : String) (within : Option MethodId) :
    S.Sim Eq (Crossings.nested a type within)
      (Crossings.nested (a.withFaults plan) type within) := by
  refine Link.Sim.bindEq (S.ask _ _) (fun holders => S.collect (fun h => ?_) holders)
  refine (S.sitesFor h.declaringType within).bindEq (fun sites => ?_)
  exact S.collect (fun s => (S.nestedAt type h s).bindEq (fun _ => .pure rfl)) sites

theorem searchCrossings (type field : String) (within : Option MethodId) :
    S.Sim Eq (Crossings.search a type field within)
      (Crossings.search (a.withFaults plan) type field within) :=
  (S.direct type field within).bindEq (fun _ => (S.nested type within).bindEq (fun _ => .pure rfl))

theorem crossings (type field : String) (within : Option MethodId) :
    S.Sim Eq (Crossings.of a type field within)
      (Crossings.of (a.withFaults plan) type field within) :=
  S.cached (.crossings type field within) (S.searchCrossings type field within)

/-! ### Callers -/

theorem callersOf (m : MethodId) :
    S.Sim S.refs (Callers.of a m) (Callers.of (a.withFaults plan) m) :=
  S.cached (.callers m) (S.callers m)

theorem searchImplementations (m : MethodId) :
    S.Sim Eq (Callers.searchImplementations a m)
      (Callers.searchImplementations (a.withFaults plan) m) := by
  refine Link.Sim.bindEq (S.ask _ _) (fun found => ?_)
  refine Link.Sim.get.bind (fun r r' hr => .pure ?_)
  rw [S.implementationLimit hr]

theorem implementations (m : MethodId) :
    S.Sim Eq (Callers.implementations a m) (Callers.implementations (a.withFaults plan) m) :=
  S.cached (.implementations m) (S.searchImplementations m)

theorem family (m : MethodId) :
    S.Sim Eq (Callers.family a m) (Callers.family (a.withFaults plan) m) := by
  refine Link.Sim.bindEq (S.ask _ _) (fun decl => ?_)
  refine Link.Sim.bindEq (S.ask _ _) (fun owner => ?_)
  -- the overridden methods are put after whatever was found below
  have habove : ∀ below : List MethodId, S.Sim Eq
      (if decl.any MethodDecl.isConstructor then
        pure [] >>= fun above => pure (m :: (below ++ above))
      else a.superMethodsOf m >>= fun above => pure (m :: (below ++ above)))
      (if decl.any MethodDecl.isConstructor then
        pure [] >>= fun above => pure (m :: (below ++ above))
      else (a.withFaults plan).superMethodsOf m >>= fun above => pure (m :: (below ++ above))) := by
    intro below
    split
    · exact Link.Sim.bindEq (.pure rfl) (fun _ => .pure rfl)
    · exact (S.ask _ _).bindEq (fun _ => .pure rfl)
  dsimp only
  split
  · exact (S.implementations m).bindEq habove
  · exact Link.Sim.bindEq (.pure rfl) habove

/-- The uses of the members of a family come in the same groups. -/
theorem ofAll (members : List MethodId) (ms : List MethodId) :
    S.Sim SameGroups (Callers.ofAll a members ms)
      (Callers.ofAll (a.withFaults plan) members ms) := by
  induction ms with
  | nil => exact .pure (SameGroups.refl [])
  | cons m ms ih =>
    refine S.checkpoint.bindEq (fun _ => (S.callersOf m).bind (fun refs refs' hrefs => ?_))
    refine ih.bind (fun rest rest' hrest => .pure ?_)
    exact ((S.sameGroups hrefs).filter (fun e => !e.any (fun m => members.contains m))).append hrest

theorem throughDispatch (m : MethodId) :
    S.Sim SameGroups (Callers.throughDispatch a m)
      (Callers.throughDispatch (a.withFaults plan) m) :=
  (S.family m).bindEq (fun members => S.ofAll members _)

/-! ### Accessors -/

theorem accessorsOf (f : FieldRef) :
    S.Sim Eq (Accessor.of a f) (Accessor.of (a.withFaults plan) f) := by
  refine Link.Sim.bindEq (S.ask _ _) (fun found => ?_)
  cases found with
  | none => exact .throw nofun
  | some field =>
    exact (S.ask _ _).bindEq (fun _ => (S.ask _ _).bindEq (fun _ => .pure rfl))

/-- The calls of an accessor come in the same groups. -/
theorem references (x : Accessor) :
    S.Sim SameGroups (x.references a) (x.references (a.withFaults plan)) := by
  have hcalls : S.Sim Eq
      (Analysis.cached (.memberCalls x.owner x.name) (a.memberCalls x.owner x.name))
      (Analysis.cached (.memberCalls x.owner x.name)
        ((a.withFaults plan).memberCalls x.owner x.name)) :=
    S.cached (.memberCalls x.owner x.name) (S.ask _ _)
  unfold Accessor.references
  refine S.checkpoint.bindEq (fun _ => hcalls.bindEq (fun calls => ?_))
  cases x.declared with
  | none => exact .pure (SameGroups.refl calls)
  | some m =>
    refine (S.callersOf m).bind (fun refs refs' hrefs => .pure ?_)
    exact (S.sameGroups hrefs).merge calls

theorem fieldUsers (f : FieldRef) :
    S.Sim Eq (Expansion.fieldUsers a f) (Expansion.fieldUsers (a.withFaults plan) f) :=
  S.checkpoint.bindEq (fun _ => S.cached (.references f) (S.ask _ _))

/-- Only cancellation is excused. -/
def Strict : Prop := ∀ e r, S.excused e r → e.isCancellation = true

/-- The node of a method is classified in the light of further patterns for entry points. -/
theorem methodNode (hpatterns : ∀ {r r'}, S.rel r r' →
      r.settings.extraEntryPatterns = r'.settings.extraEntryPatterns)
    (m : MethodId) (location : Option Location) :
    S.Sim Eq (Expansion.methodNode a m location)
      (Expansion.methodNode (a.withFaults plan) m location) := by
  refine Link.Sim.bindEq (S.ask _ _) (fun decl => ?_)
  refine Link.Sim.get.bind (fun r r' hr => .pure ?_)
  rw [hpatterns hr]

/-- Every search behind a remembered answer. -/
theorem searchFor :
    ∀ k : CacheKey,
      S.Sim (k.Related S.refs) (a.searchFor k) ((a.withFaults plan).searchFor k)
  | .projectSites => S.searchProject
  | .methodSites m => S.searchMethod m
  | .typeSites type => S.searchType type
  | .crossings type field within => S.searchCrossings type field within
  | .callers m => S.callers m
  | .implementations m => S.searchImplementations m
  | .references _ => S.ask _ _
  | .memberCalls _ _ => S.ask _ _

end SearchSimulation

/-! ### Children -/

/-- The users of a field in methods other than its accessors. -/
def Expansion.directUsers (f : FieldRef) (accessors : List Accessor) (decl : Option FieldDecl)
    (users : List Reference) : List Reference :=
  users.filter (fun r => r.enclosing.any (fun m =>
    !((f.declaringType :: (decl.map FieldDecl.declaringType).toList).contains m.owner &&
      (accessors.map Accessor.name).contains m.name)))

/-- From linked runs the first analysis finds the uses that the callers of a node are taken from. -/
inductive Link.FindsUses (L : Link) (a : IndexAccess) (t : Task) : List Reference → Prop where
  | root {accessors : List Accessor} {decl : Option FieldDecl} {users : List Reference}
    (hstep : t.step = .root) (haccessors : L.Finds (Accessor.of a t.context) accessors)
    (hdecl : L.Finds (a.fieldOn t.context.declaringType t.context.name) decl)
    (husers : L.Finds (Expansion.fieldUsers a ((decl.map FieldDecl.ref).getD t.context)) users) :
    FindsUses L a t (Expansion.directUsers t.context accessors decl users)
  | accessor {x : Accessor} {refs : List Reference} (hstep : t.step = .accessor x)
    (hrefs : L.Finds (x.references a) refs) : FindsUses L a t refs
  | method {m : MethodId} {refs : List Reference} (hstep : t.step = .method m)
    (hrefs : L.Finds (Callers.throughDispatch a m) refs) : FindsUses L a t refs

/-- What the two sides show below a node is related by `R`, given that the searches behind it are
simulated. The steps that show children may end in more failures than those that search. -/
structure ChildSimulation {a : IndexAccess} {plan : FaultPlan} (S : SearchSimulation a plan)
    (L : Link) (R : List Child → List Child → Prop) (t : Task) : Prop where
  lift : ∀ {α β : Type} {Q : α → β → Prop} {x : Analysis α} {y : Analysis β},
    S.Sim Q x y → L.Sim Q x y
  append : ∀ {cs cs' ds ds'}, R cs cs' → R ds ds' → R (cs ++ ds) (cs' ++ ds')
  mappings : ∀ {r r'}, L.rel r r' → ∀ (showDeclaring : Bool) (crossings : List Crossing),
    R ((limitCrossings r.settings.mappingSiteLimit crossings).filterMap
        (t.mappingChild? showDeclaring))
      ((limitCrossings r'.settings.mappingSiteLimit crossings).filterMap
        (t.mappingChild? showDeclaring))
  accessors : ∀ (f : FieldRef) (xs : List Accessor),
    R (xs.filterMap (t.accessorChild? f)) (xs.filterMap (t.accessorChild? f))
  declaring : ∀ (m : MethodId) (location : Option Location),
    L.Sim R
      (Expansion.methodNode a m location >>= fun n =>
        pure (if t.path.contains n.key then [] else [t.methodChild n m]))
      (Expansion.methodNode (a.withFaults plan) m location >>= fun n =>
        pure (if t.path.contains n.key then [] else [t.methodChild n m]))
  callerChildren : ∀ {refs refs' : List Reference}, L.FindsUses a t refs → SameGroups refs refs' →
    L.Sim R (Expansion.callerChildren a t refs)
      (Expansion.callerChildren (a.withFaults plan) t refs')

namespace ChildSimulation

variable {a : IndexAccess} {plan : FaultPlan} {S : SearchSimulation a plan} {L : Link}
  {R : List Child → List Child → Prop} {t : Task} (C : ChildSimulation S L R t)
include C

theorem root (hS : S.Strict) (hstep : t.step = .root) :
    L.Sim R (Expansion.root a t) (Expansion.root (a.withFaults plan) t) := by
  refine (C.lift (S.crossings _ _ _)).bindEq (fun crossings => ?_)
  refine Link.Sim.get.bind (fun r r' hr => ?_)
  have hmappings := C.mappings hr true crossings
  refine (C.lift (S.accessorsOf _)).bindFound ?_
  rintro accessors _ haccessors rfl
  have hfound := C.append hmappings (C.accessors t.context accessors)
  refine Link.Sim.bindFound (C.lift (S.ask _ _)) ?_
  rintro decl _ hdecl rfl
  refine Link.Sim.bindFound (C.lift (.attempt hS (S.fieldUsers _))) ?_
  rintro users _ husers rfl
  cases users with
  | none => exact .pure hfound
  | some users =>
    refine (C.callerChildren (.root hstep haccessors hdecl husers.of_attempt)
      (SameGroups.refl _)).bind (fun callers callers' hcallers => ?_)
    exact .pure (C.append hfound hcallers)

theorem mapping (c : Crossing) (showDeclaring : Bool) :
    L.Sim R (Expansion.mapping a t c showDeclaring)
      (Expansion.mapping (a.withFaults plan) t c showDeclaring) := by
  have haccessors : ∀ declaring declaring' : List Child, R declaring declaring' → L.Sim R
      (Accessor.of a c.continueAt >>= fun accessors => pure (declaring ++
        accessors.filterMap (t.accessorChild? ⟨c.nextType, t.context.name⟩)))
      (Accessor.of (a.withFaults plan) c.continueAt >>= fun accessors => pure (declaring' ++
        accessors.filterMap (t.accessorChild? ⟨c.nextType, t.context.name⟩))) :=
    fun _ _ h => (C.lift (S.accessorsOf _)).bindEq (fun xs => .pure (C.append h (C.accessors _ xs)))
  unfold Expansion.mapping
  dsimp only
  split
  · refine Link.Sim.bindEq (C.lift (S.ask _ _)) (fun decl => ?_)
    have hdeclaring := (C.declaring c.site.declaring (decl.map MethodDecl.location)).bind haccessors
    rwa [bind_assoc, bind_assoc] at hdeclaring
  · exact Link.Sim.bind (.pure (C.accessors t.context [])) haccessors

theorem accessor {x : Accessor} (hstep : t.step = .accessor x) :
    L.Sim R (Expansion.accessor a t x) (Expansion.accessor (a.withFaults plan) t x) :=
  (C.lift (S.references x)).bindFound (fun _ _ hfound h => C.callerChildren (.accessor hstep hfound) h)

theorem method {m : MethodId} (hstep : t.step = .method m) :
    L.Sim R (Expansion.method a t m) (Expansion.method (a.withFaults plan) t m) := by
  refine (C.lift (S.throughDispatch m)).bindFound (fun refs refs' hfound hrefs => ?_)
  refine (C.callerChildren (.method hstep hfound) hrefs).bind (fun callers callers' hcallers => ?_)
  refine (C.lift (S.crossings _ _ _)).bindEq (fun crossings => ?_)
  exact Link.Sim.get.bind (fun r r' hr => .pure (C.append hcallers (C.mappings hr false _)))

theorem children (hS : S.Strict) :
    L.Sim R (Expansion.children a t) (Expansion.children (a.withFaults plan) t) := by
  unfold Expansion.children
  cases hstep : t.step with
  | root => exact C.root hS hstep
  | mapping c showDeclaring => exact C.mapping c showDeclaring
  | accessor x => exact C.accessor hstep
  | method m => exact C.method hstep

end ChildSimulation

namespace LocalSimulation

variable {a : IndexAccess} {plan : FaultPlan} (S : LocalSimulation a plan)

theorem callersAt (t : Task) (calls : List (MethodId × Location)) :
    S.Sim Eq (Expansion.callersAt a t calls)
      (Expansion.callersAt (a.withFaults plan) t calls) := by
  induction calls with
  | nil => exact .pure rfl
  | cons call calls ih =>
    refine (S.methodNode (fun hr => (S.widths hr).extraEntryPatterns) _ _).bindEq (fun _ => ?_)
    exact ih.bindEq (fun _ => .pure rfl)

/-- The groups of the references are all that the children depend on. -/
theorem callerChildren (t : Task) {refs refs' : List Reference} (h : SameGroups refs refs') :
    S.Sim Eq (Expansion.callerChildren a t refs)
      (Expansion.callerChildren (a.withFaults plan) t refs') := by
  refine Link.Sim.get.bind (fun r r' hr => ?_)
  simp only [(S.widths hr).callerLimit, (S.widths hr).callSiteLimit,
    CallerGroups.collect_congr h]
  exact S.callersAt t _

/-- Where all limits agree, both sides show the same children. -/
theorem sameChildren (t : Task) : ChildSimulation S.toSearchSimulation S.toLink Eq t where
  lift h := h
  append h h' := by rw [h, h']
  mappings hr _ _ := by rw [(S.widths hr).mappingSiteLimit]
  accessors _ _ := rfl
  declaring _ _ := (S.methodNode (fun hr => (S.widths hr).extraEntryPatterns) _ _).bindEq
    (fun _ => .pure rfl)
  callerChildren _ h := S.callerChildren t h

end LocalSimulation

/-! ### What holds all along a run -/

/-- One run that has a property. -/
def Link.keeping (I : Run → Prop) (cancels : Prop) : Link where
  rel r r' := r = r' ∧ I r
  excused _ _ := False
  cancels := cancels

/-- The property has nothing to do with the cache and the number of questions, and outlasts a poll.
While it holds, neither a poll nor a question cancels if cancellation is ruled out. -/
structure Run.Stable (a : IndexAccess) (I : Run → Prop) (cancels : Prop) : Prop where
  cache : ∀ {r : Run}, I r → ∀ c, I { r with cache := c }
  indexCalls : ∀ {r : Run}, I r → ∀ n, I { r with indexCalls := n }
  poll : ∀ {r : Run}, I r → I { r with token := r.token.poll }
  poll_cancels : ∀ {r : Run}, I r → r.token.poll.isCancelled = true → cancels
  fails_cancels : ∀ {n call e}, a.fails n call = some e → e.isCancellation = true → cancels

namespace Link

variable {a : IndexAccess} {I : Run → Prop} {cancels : Prop}

theorem keeping_checkpoint (h : Run.Stable a I cancels) :
    (Link.keeping I cancels).Sim Eq Analysis.checkpoint Analysis.checkpoint := by
  rintro r _ ⟨rfl, hr⟩
  rw [Analysis.runOn_checkpoint]
  split
  next hcancel => exact .error (fun _ => h.poll_cancels hr hcancel) ⟨rfl, h.poll hr⟩
  next => exact .ok rfl ⟨rfl, h.poll hr⟩

theorem keeping_ask (h : Run.Stable a I cancels) {α : Type} (call : IndexCall) (answer : α) :
    (Link.keeping I cancels).Sim Eq (a.ask call answer) (a.ask call answer) := by
  rintro r _ ⟨rfl, hr⟩
  rw [Analysis.runOn_ask]
  cases hfail : a.fails r.indexCalls call with
  | some e => exact .error (h.fails_cancels hfail) ⟨rfl, h.indexCalls hr _⟩
  | none => exact .ok rfl ⟨rfl, h.indexCalls hr _⟩

theorem keeping_cached (h : Run.Stable a I cancels) {k : CacheKey} {x : Analysis k.Answer}
    (hx : (Link.keeping I cancels).Sim Eq x x) :
    (Link.keeping I cancels).Sim Eq (Analysis.cached k x) (Analysis.cached k x) := by
  rintro r _ ⟨rfl, hr⟩
  cases hfind : r.cache.find? k with
  | some v =>
    rw [Analysis.runOn_cached_hit r hfind]
    exact .ok rfl ⟨rfl, h.cache hr _⟩
  | none =>
    rw [Analysis.runOn_cached_miss r hfind]
    have hm := hx { r with cache := r.cache.recordMiss k } _ ⟨rfl, h.cache hr _⟩
    revert hm
    generalize x.runOn { r with cache := r.cache.recordMiss k } = p
    intro hm
    cases hm with
    | ok _ hr' => exact .ok rfl ⟨rfl, h.cache hr'.2 _⟩
    | error he hr' => exact .error he hr'
    | excused he => exact he.elim

/-- The property holds at the end, and cancellation is as ruled. -/
theorem Sim.keeps {α : Type} {x : Analysis α} (h : (Link.keeping I cancels).Sim Eq x x) {r : Run}
    (hr : I r) :
    I (x.runOn r).2 ∧ ∀ e r', x.runOn r = (.error e, r') → e.isCancellation = true → cancels := by
  have hm := h r r ⟨rfl, hr⟩
  revert hm
  generalize x.runOn r = p
  intro hm
  cases hm with
  | ok _ hr' => exact ⟨hr'.2, nofun⟩
  | error he hr' =>
    refine ⟨hr'.2, ?_⟩
    rintro _ _ ⟨⟩
    exact he
  | excused he => exact he.elim

end Link

/-- The basic operations keep a stable property. -/
def Simulation.keeping {a : IndexAccess} {I : Run → Prop} {cancels : Prop}
    (h : Run.Stable a I cancels) : Simulation a a.fails where
  toLink := Link.keeping I cancels
  refs := Eq
  sameGroups := SameGroups.of_eq
  settings hr := by
    rw [hr.1]
    exact .refl _
  checkpoint := Link.keeping_checkpoint h
  ask := Link.keeping_ask h
  callers := Link.Sim.callerSearch rfl (fun _ _ hr => by rw [hr.1]) (Link.keeping_ask h)
  cached k hk := by
    rw [k.related_eq] at hk ⊢
    exact Link.keeping_cached h hk

/-! ### What finding children leaves alone -/

/-- Settings and counters are left alone by all basic operations. -/
theorem Run.stable_frame (a : IndexAccess) (s : Settings) (counters : Table String Int) :
    Run.Stable a (fun r => r.settings = s ∧ r.counters = counters) True :=
  ⟨fun h _ => h, fun h _ => h, fun h => h, fun _ _ => trivial, fun _ _ => trivial⟩

/-- Finding the children of a node leaves settings and counters alone. -/
theorem runOn_children_frame (a : IndexAccess) (t : Task) (r : Run) :
    ((Expansion.children a t).runOn r).2.settings = r.settings ∧
      ((Expansion.children a t).runOn r).2.counters = r.counters :=
  (Link.Sim.keeps (((Simulation.keeping (Run.stable_frame a r.settings r.counters)).sameChildren
    t).children (fun _ _ he => he.elim)) ⟨rfl, rfl⟩).1

/-- Finding crossings leaves settings and counters alone. -/
theorem runOn_crossings_frame (a : IndexAccess) (type field : String) (within : Option MethodId)
    (r : Run) :
    ((Crossings.of a type field within).runOn r).2.settings = r.settings ∧
      ((Crossings.of a type field within).runOn r).2.counters = r.counters :=
  (Link.Sim.keeps ((Simulation.keeping (Run.stable_frame a r.settings r.counters)).crossings
    type field within) ⟨rfl, rfl⟩).1

end FieldTrace
