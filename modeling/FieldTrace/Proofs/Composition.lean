import FieldTrace.Proofs.Recursion
import FieldTrace.Tracer

/-! # What analyses are made of

Every analysis is put together from a few basic operations: polling the token, asking the index,
reading the settings, counting, remembering, and falling back on a failed branch (`Composed`). This
is checked once for each function; what all basic operations do to a run is then known of every
analysis by induction on how it is put together. -/

namespace FieldTrace

/-- The analysis is put together from basic operations. What it remembers are the answers of the
searches of the index. -/
inductive Analysis.Composed (a : IndexAccess) : {α : Type} → Analysis α → Prop where
  | pure {α : Type} (v : α) : Composed a (pure v)
  | throw {α : Type} (e : Failure) : Composed a (throw e : Analysis α)
  | checkpoint : Composed a checkpoint
  | count (name : String) (amount : Int) : Composed a (count name amount)
  | ask {α : Type} (call : IndexCall) (answer : α) : Composed a (a.ask call answer)
  | settings {α : Type} {f : Run → Analysis α} (hf : ∀ r, Composed a (f r))
    (hsame : ∀ r r', r.settings = r'.settings → f r = f r') : Composed a (get >>= f)
  | bind {α β : Type} {x : Analysis α} {f : α → Analysis β} (hx : Composed a x)
    (hf : ∀ v, Composed a (f v)) : Composed a (x >>= f)
  | cached {k : CacheKey} (hk : Composed a (a.searchFor k)) :
    Composed a (Analysis.cached k (a.searchFor k))
  | attempt {α : Type} {x : Analysis α} (hx : Composed a x) : Composed a (attempt x)

namespace Analysis.Composed

variable {a : IndexAccess}

theorem map {α β : Type} {x : Analysis α} (hx : Composed a x) (f : α → β) :
    Composed a (x >>= fun v => Pure.pure (f v)) :=
  hx.bind (fun _ => .pure _)

/-! ### Mapping sites -/

theorem sitesFrom (sites : List MappingSite) (calls : List CallSite) :
    Composed a (Detection.sitesFrom sites calls) := by
  induction calls generalizing sites with
  | nil => exact .pure _
  | cons c calls ih => exact .bind .checkpoint (fun _ => ih _)

theorem inProject : Composed a (Detection.inProject a) :=
  .cached (k := .projectSites) (.bind (.ask _ _) (fun calls => sitesFrom [] calls))

theorem ofType (type : String) : Composed a (Detection.ofType a type) :=
  .cached (k := .typeSites type) (inProject.map _)

theorem inMethod (m : MethodId) : Composed a (Detection.inMethod a m) :=
  .cached (k := .methodSites m) (.bind (.ask _ _) (fun _ => sitesFrom [] _))

/-! ### Crossings -/

theorem sitesFor (type : String) (within : Option MethodId) :
    Composed a (Crossings.sitesFor a type within) := by
  cases within with
  | none => exact ofType type
  | some m => exact (inMethod m).map _

theorem sharesFieldName (first second : String) :
    Composed a (Crossings.sharesFieldName a first second) := by
  refine .bind (.ask _ _) (fun fields => ?_)
  dsimp only
  split
  · exact .pure _
  · exact .map (.ask _ _) _

theorem directAt (type field : String) (site : MappingSite) :
    Composed a (Crossings.directAt a type field site) := by
  unfold Crossings.directAt
  cases Crossings.otherSide type site with
  | none => exact .pure _
  | some other =>
    refine .bind (.ask _ _) (fun found => ?_)
    cases found <;> exact .pure _

theorem nestedAt (type : String) (holder : FieldDecl) (site : MappingSite) :
    Composed a (Crossings.nestedAt a type holder site) := by
  unfold Crossings.nestedAt
  cases Crossings.otherSide holder.declaringType site with
  | none => exact .pure _
  | some other =>
    refine .bind (.ask _ _) (fun found => ?_)
    cases found with
    | none => exact .pure _
    | some counterpart =>
      refine .bind (sharesFieldName type _) (fun shares => ?_)
      cases shares <;> exact .pure _

theorem collect {α : Type} {step : α → Analysis (List Crossing)} (h : ∀ x, Composed a (step x))
    (xs : List α) : Composed a (Crossings.collect step xs) := by
  induction xs with
  | nil => exact .pure _
  | cons x xs ih => exact .bind (h x) (fun _ => ih.map _)

theorem direct (type field : String) (within : Option MethodId) :
    Composed a (Crossings.direct a type field within) := by
  refine .bind (.ask _ _) (fun found => ?_)
  cases found with
  | none => exact .pure _
  | some _ =>
    exact .bind (sitesFor type within)
      (fun sites => collect (fun s => (directAt _ _ s).map _) sites)

theorem nested (type : String) (within : Option MethodId) :
    Composed a (Crossings.nested a type within) := by
  refine .bind (.ask _ _) (fun holders => collect (fun h => ?_) holders)
  exact .bind (sitesFor h.declaringType within)
    (fun sites => collect (fun s => (nestedAt _ h s).map _) sites)

theorem crossings (type field : String) (within : Option MethodId) :
    Composed a (Crossings.of a type field within) :=
  .cached (k := .crossings type field within)
    (.bind (direct type field within) (fun _ => (nested type within).map _))

/-! ### Callers and accessors -/

theorem searchCallers (m : MethodId) : Composed a (Callers.search a m) := by
  refine .settings (fun r => ?_) (fun r r' h => by rw [h])
  cases CallerSearch.forSettings r.settings <;> exact .ask _ _

theorem callersOf (m : MethodId) : Composed a (Callers.of a m) :=
  .cached (k := .callers m) (searchCallers m)

theorem searchImplementations (m : MethodId) : Composed a (Callers.searchImplementations a m) :=
  .bind (.ask _ _) (fun _ => .settings (fun _ => .pure _) (fun r r' h => by rw [h]))

theorem implementations (m : MethodId) : Composed a (Callers.implementations a m) :=
  .cached (k := .implementations m) (searchImplementations m)

theorem family (m : MethodId) : Composed a (Callers.family a m) := by
  refine .bind (.ask _ _) (fun decl => .bind (.ask _ _) (fun owner => ?_))
  have habove : ∀ below : List MethodId, Composed a
      (if decl.any MethodDecl.isConstructor then
        Pure.pure [] >>= fun above => Pure.pure (m :: (below ++ above))
      else a.superMethodsOf m >>= fun above => Pure.pure (m :: (below ++ above))) := by
    intro below
    split
    · exact .map (.pure _) _
    · exact .map (.ask _ _) _
  dsimp only
  split
  · exact .bind (implementations m) habove
  · exact .bind (.pure _) habove

theorem ofAll (members ms : List MethodId) : Composed a (Callers.ofAll a members ms) := by
  induction ms with
  | nil => exact .pure _
  | cons m ms ih => exact .bind .checkpoint (fun _ => .bind (callersOf m) (fun _ => ih.map _))

theorem throughDispatch (m : MethodId) : Composed a (Callers.throughDispatch a m) :=
  .bind (family m) (fun members => ofAll members _)

theorem accessorsOf (f : FieldRef) : Composed a (Accessor.of a f) := by
  refine .bind (.ask _ _) (fun found => ?_)
  cases found with
  | none => exact .throw _
  | some field => exact .bind (.ask _ _) (fun _ => .map (.ask _ _) _)

theorem references (x : Accessor) : Composed a (x.references a) := by
  unfold Accessor.references
  refine .bind .checkpoint (fun _ => .bind (.cached (k := .memberCalls x.owner x.name) (.ask _ _))
    (fun calls => ?_))
  cases x.declared with
  | none => exact .pure _
  | some m => exact (callersOf m).map _

/-! ### Children -/

theorem methodNode (m : MethodId) (location : Option Location) :
    Composed a (Expansion.methodNode a m location) :=
  .bind (.ask _ _) (fun _ => .settings (fun _ => .pure _) (fun r r' h => by rw [h]))

theorem callersAt (t : Task) (calls : List (MethodId × Location)) :
    Composed a (Expansion.callersAt a t calls) := by
  induction calls with
  | nil => exact .pure _
  | cons call calls ih => exact .bind (methodNode _ _) (fun _ => ih.map _)

theorem callerChildren (t : Task) (refs : List Reference) :
    Composed a (Expansion.callerChildren a t refs) :=
  .settings (fun _ => callersAt t _) (fun r r' h => by rw [h])

theorem fieldUsers (f : FieldRef) : Composed a (Expansion.fieldUsers a f) :=
  .bind .checkpoint (fun _ => .cached (k := .references f) (.ask _ _))

theorem root (t : Task) : Composed a (Expansion.root a t) := by
  refine .bind (crossings _ _ _) (fun found => .settings (fun r => ?_) (fun r r' h => by rw [h]))
  refine .bind (accessorsOf _) (fun accessors => .bind (.ask _ _) (fun decl => ?_))
  refine .bind (.attempt (fieldUsers _)) (fun users => ?_)
  cases users with
  | none => exact .pure _
  | some users => exact (callerChildren t _).map _

theorem mapping (t : Task) (c : Crossing) (showDeclaring : Bool) :
    Composed a (Expansion.mapping a t c showDeclaring) := by
  unfold Expansion.mapping
  dsimp only
  split
  · refine .bind (.ask _ _) (fun decl => .bind (methodNode _ _) (fun n => ?_))
    exact .bind (.pure _) (fun _ => (accessorsOf _).map _)
  · exact .bind (.pure _) (fun _ => (accessorsOf _).map _)

theorem accessor (t : Task) (x : Accessor) : Composed a (Expansion.accessor a t x) :=
  .bind (references x) (fun _ => callerChildren t _)

theorem method (t : Task) (m : MethodId) : Composed a (Expansion.method a t m) :=
  .bind (throughDispatch m) (fun _ => .bind (callerChildren t _) (fun _ =>
    .bind (crossings _ _ _) (fun _ => .settings (fun _ => .pure _) (fun r r' h => by rw [h]))))

theorem children (t : Task) : Composed a (Expansion.children a t) := by
  unfold Expansion.children
  cases t.step with
  | root => exact root t
  | mapping c showDeclaring => exact mapping t c showDeclaring
  | accessor x => exact accessor t x
  | method m => exact method t m

/-! ### Trees and relations -/

theorem trees {below : Task → Analysis (List CallTree)} (h : ∀ t, Composed a (below t))
    (children : List Child) : Composed a (Expansion.trees below children) := by
  induction children with
  | nil => exact .pure _
  | cons c children ih =>
    obtain ⟨n, task⟩ := c
    cases task with
    | none => exact ih.map _
    | some t => exact .bind (h t) (fun _ => ih.map _)

theorem treesBelow (remaining : Nat) : ∀ t, Composed a (Expansion.below a remaining t) := by
  induction remaining with
  | zero => exact fun t => .bind .checkpoint (fun _ => .map (.count _ _) _)
  | succ remaining ih =>
    intro t
    refine .bind .checkpoint (fun _ => .bind (.attempt (children t)) (fun found => ?_))
    cases found with
    | none => exact .pure _
    | some cs => exact .bind (.count _ _) (fun _ => trees ih cs)

theorem buildHierarchy (seed : FieldRef) : Composed a (buildHierarchy a seed) := by
  rw [buildHierarchy_eq]
  refine .bind .checkpoint (fun _ => .bind (.ask _ _) (fun resolved => ?_))
  cases resolved.filter (fun t => t ≠ "") with
  | none => exact .pure _
  | some type =>
    refine .bind (.ask _ _) (fun found => ?_)
    cases found with
    | none => exact .pure _
    | some field => exact .settings (fun _ => (treesBelow _ _).map _) (fun r r' h => by rw [h])

theorem nextType (visited queue : List String) :
    Composed a (Resolution.nextType visited queue) := by
  induction queue with
  | nil => exact .pure _
  | cons t queue ih =>
    refine .bind .checkpoint (fun _ => ?_)
    split
    · exact ih
    · exact .pure _

theorem expand (field : String) (bound : Nat) :
    ∀ visited queue res, Composed a (Resolution.expand a field bound visited queue res) := by
  induction bound with
  | zero => exact fun _ _ _ => .pure _
  | succ bound ih =>
    intro visited queue res
    refine .bind (nextType visited queue) (fun next => ?_)
    cases next with
    | none => exact .pure _
    | some next =>
      refine .bind (.count _ _) (fun _ => .bind (.attempt (crossings next.1 field none)) ?_)
      intro answer
      cases answer with
      | none => exact ih _ _ _
      | some found => exact ih _ _ _

theorem resolveRelations (seed : FieldRef) : Composed a (resolveRelations a seed) := by
  refine .bind (.ask _ _) (fun resolved => ?_)
  cases resolved with
  | none => exact .pure _
  | some type =>
    refine .bind (.ask _ _) (fun found => ?_)
    cases found with
    | none => exact .pure _
    | some _ => exact expand _ _ _ _ _

end Analysis.Composed

/-! ### Runs that no analysis spoils -/

/-- The run is sound for the index without faults, and its settings are the given ones. -/
def Run.Faithful (a : IndexAccess) (s : Settings) (r : Run) : Prop :=
  r.settings = s ∧ r.Sound a.faultless

/-- An answer that is found in spite of faults is the one without them. -/
theorem IndexAccess.Refines.outcome_eq_ok {α : Type} {a : IndexAccess} {s : Settings}
    {x y : Analysis α} {excusable : Failure → Prop} {r r' : Run} {v : α}
    (h : a.faultless.Refines s excusable x y) (hrun : x.runOn r = (.ok v, r'))
    (hr : r.Faithful a s) : y.outcome s = .ok v ∧ r'.Faithful a s := by
  obtain ⟨hs, hsound, hres | ⟨e, he, -⟩⟩ := h r _ r' hrun hr.1 hr.2
  · exact ⟨hres.symm, hs, hsound⟩
  · cases he

namespace Analysis

variable {α : Type} {a : IndexAccess}

/-- Whatever the index fails at, what a search finds is what it finds without the faults. -/
theorem refines_searchFor (a : IndexAccess) (s : Settings) (k : CacheKey) :
    a.faultless.Refines s (fun _ => True) (a.searchFor k) (a.faultless.searchFor k) := by
  have hk := (Simulation.refined a a.faultless_mayFail s).searchFor k
  rw [show (Simulation.refined a a.faultless_mayFail s).refs = Eq from rfl, k.related_eq] at hk
  exact Link.Sim.refines hk

/-- However an analysis ends, the run remembers outcomes only. -/
theorem Composed.faithful {x : Analysis α} (hx : x.Composed a) {s : Settings} :
    ∀ {r res r'}, x.runOn r = (res, r') → r.Faithful a s → r'.Faithful a s := by
  induction hx with
  | pure v =>
    rintro r _ _ ⟨⟩ hr
    exact hr
  | throw e =>
    rintro r _ _ ⟨⟩ hr
    exact hr
  | checkpoint =>
    intro r res r' hrun hr
    rw [runOn_checkpoint] at hrun
    rw [← (Prod.mk.inj hrun).2]
    exact hr
  | count name amount =>
    rintro r _ _ ⟨⟩ hr
    exact hr
  | ask call answer =>
    intro r res r' hrun hr
    rw [runOn_ask] at hrun
    rw [← (Prod.mk.inj hrun).2]
    exact hr
  | settings _ _ ih =>
    intro r res r' hrun hr
    rw [runOn_bind_ok r (runOn_get r)] at hrun
    exact ih r hrun hr
  | bind _ _ ihx ihf =>
    intro r res r' hrun hr
    obtain ⟨e, hfirst, -⟩ | ⟨v, r₁, hfirst, hsecond⟩ := runOn_bind_cases r hrun
    · exact ihx hfirst hr
    · exact ihf v hsecond (ihx hfirst hr)
  | @cached k _ _ =>
    intro r res r' hrun hr
    obtain ⟨v, -, -, rfl⟩ | ⟨-, r₁, hsearch, hend⟩ := runOn_cached_cases r hrun
    · exact hr
    · have hsearchFor := refines_searchFor a s k
      obtain ⟨e, rfl, rfl⟩ | ⟨v, rfl, rfl⟩ := hend
      · obtain ⟨hs, hsound, -⟩ := hsearchFor _ _ _ hsearch hr.1 hr.2
        exact ⟨hs, hsound⟩
      · -- only an answer that is the outcome is stored
        obtain ⟨hv, hs, hsound⟩ := hsearchFor.outcome_eq_ok hsearch hr
        exact ⟨hs, hsound.store (by rw [hs, hv])⟩
  | attempt _ ih =>
    intro r res r' hrun hr
    rw [runOn_attempt] at hrun
    rcases hx : runOn r _ with ⟨e | v, r₁⟩ <;>
      · rw [hx] at hrun
        rw [← (Prod.mk.inj hrun).2]
        exact ih hx hr

/-- If the index answers, it answers truly. -/
theorem yields_ask {s : Settings} {r : Run} (hr : r.Faithful a s) (call : IndexCall) (answer : α) :
    Yields r (a.ask call answer) (fun v r' => v = answer ∧ r'.Faithful a s) := by
  intro v r' hrun
  refine ⟨?_, (Composed.ask call answer).faithful hrun hr⟩
  rw [runOn_ask] at hrun
  split at hrun <;> cases hrun
  rfl

end Analysis

/-! ### Inquiries -/

/-- The analyses that can be asked for. -/
inductive Inquiry where
  | projectSites
  | typeSites (type : String)
  | methodSites (method : MethodId)
  | crossings (type field : String) (within : Option MethodId)
  | relations (seed : FieldRef)
  | sites (seed : FieldRef)
  | hierarchy (seed : FieldRef)

namespace Inquiry

/-- What an analysis answers. -/
abbrev Answer : Inquiry → Type
  | projectSites => List MappingSite
  | typeSites _ => List MappingSite
  | methodSites _ => List MappingSite
  | crossings _ _ _ => List Crossing
  | relations _ => Resolution
  | sites _ => List MappingSite
  | hierarchy _ => CallTree

/-- Perform an analysis. -/
def perform (a : IndexAccess) : (q : Inquiry) → Analysis q.Answer
  | projectSites => Detection.inProject a
  | typeSites type => Detection.ofType a type
  | methodSites m => Detection.inMethod a m
  | crossings type field within => Crossings.of a type field within
  | relations seed => resolveRelations a seed
  | sites seed => do return stableSort MappingSite.lt (← resolveRelations a seed).sites
  | hierarchy seed => buildHierarchy a seed

theorem composed_perform (a : IndexAccess) : ∀ q : Inquiry, (q.perform a).Composed a
  | projectSites => .inProject
  | typeSites type => .ofType type
  | methodSites m => .inMethod m
  | crossings type field within => .crossings type field within
  | relations seed => .resolveRelations seed
  | sites seed => (Analysis.Composed.resolveRelations seed).map _
  | hierarchy seed => .buildHierarchy seed

end Inquiry

end FieldTrace
