import FieldTrace.Proofs.Closure
import FieldTrace.Proofs.Composition

/-! # What a shared run remembers

Many analyses may share one run, one after the other. Any of them may meet faults of the index or be
cancelled on the way, and still the run remembers nothing but the outcomes of fresh searches over
the index without faults: a search that fails is not remembered, and one that succeeds has met none.
This holds at every stage of every analysis. So an analysis that meets no fault and no cancellation
cannot notice what happened on the run before it. -/

namespace FieldTrace

namespace Analysis

variable {α : Type} {a : IndexAccess}

/-! ### Stages of an analysis -/

/-- The second run is a stage of the analysis on the first run: it comes about at the start, at the
end, or in the midst of a part. -/
inductive Stage (a : IndexAccess) : {α : Type} → Analysis α → Run → Run → Prop where
  | start {α : Type} (x : Analysis α) (r : Run) : Stage a x r r
  | finish {α : Type} {x : Analysis α} (hx : x.Composed a) (r : Run) : Stage a x r (x.runOn r).2
  | settings {α : Type} {f : Run → Analysis α} {r r' : Run} (h : Stage a (f r) r r') :
    Stage a (get >>= f) r r'
  | first {α β : Type} {x : Analysis α} {r r' : Run} (h : Stage a x r r') (f : α → Analysis β) :
    Stage a (x >>= f) r r'
  | second {α β : Type} {x : Analysis α} {f : α → Analysis β} {v : α} {r r₁ r' : Run}
    (hx : x.Composed a) (hrun : x.runOn r = (.ok v, r₁)) (h : Stage a (f v) r₁ r') :
    Stage a (x >>= f) r r'
  | search {k : CacheKey} {r r' : Run} (hfind : r.cache.find? k = none)
    (h : Stage a (a.searchFor k) { r with cache := r.cache.recordMiss k } r') :
    Stage a (cached k (a.searchFor k)) r r'
  | branch {α : Type} {x : Analysis α} {r r' : Run} (h : Stage a x r r') : Stage a (attempt x) r r'

/-- At every stage the run remembers outcomes only. -/
theorem Stage.faithful {x : Analysis α} {r r' : Run} (h : Stage a x r r') {s : Settings}
    (hr : r.Faithful a s) : r'.Faithful a s := by
  induction h with
  | start => exact hr
  | finish hx r => exact hx.faithful rfl hr
  | settings _ ih => exact ih hr
  | first _ _ ih => exact ih hr
  | second hx hrun _ ih => exact ih (hx.faithful hrun hr)
  | search _ _ ih => exact ih hr
  | branch _ ih => exact ih hr

end Analysis

/-! ### Analyses that nothing disturbs -/

/-- The index with each of its faults turned into a cancellation. -/
def IndexAccess.brittle (a : IndexAccess) : IndexAccess :=
  a.withFaults (fun n call => (a.fails n call).map (fun _ => .analysisCancelled))

theorem IndexAccess.brittle_fails (a : IndexAccess) (n : Nat) (call : IndexCall) :
    a.brittle.fails n call = (a.fails n call).map (fun _ => .analysisCancelled) := rfl

theorem IndexAccess.brittle_mayFail (a : IndexAccess) :
    a.brittle.MayFail (fun _ => none) (fun e => e.isCancellation = true) where
  cancelled := rfl
  ask n call := by
    rw [brittle_fails]
    cases a.fails n call with
    | none => exact .inl rfl
    | some e => exact .inr ⟨.analysisCancelled, rfl, rfl⟩

/-- The same run on both sides; the first analysis may be cancelled. -/
def Link.unlessCancelled : Link where
  rel r r' := r = r'
  excused e _ := e.isCancellation = true
  cancels := True

namespace Link

theorem unlessCancelled_checkpoint :
    unlessCancelled.Sim Eq Analysis.checkpoint Analysis.checkpoint := by
  rintro r _ rfl
  rw [Analysis.runOn_checkpoint]
  split
  · exact .error (fun _ => trivial) rfl
  · exact .ok rfl rfl

theorem unlessCancelled_ask {a : IndexAccess} {α : Type} (call : IndexCall) (answer : α) :
    unlessCancelled.Sim Eq (a.brittle.ask call answer) (a.ask call answer) := by
  rintro r _ rfl
  rw [Analysis.runOn_ask, Analysis.runOn_ask, a.brittle_fails]
  cases a.fails r.indexCalls call with
  | none => exact .ok rfl rfl
  | some e => exact .excused rfl

theorem unlessCancelled_cached {k : CacheKey} {x y : Analysis k.Answer}
    (h : unlessCancelled.Sim Eq x y) :
    unlessCancelled.Sim Eq (Analysis.cached k x) (Analysis.cached k y) := by
  rintro r _ rfl
  cases hfind : r.cache.find? k with
  | some v =>
    rw [Analysis.runOn_cached_hit r hfind, Analysis.runOn_cached_hit r hfind]
    exact .ok rfl rfl
  | none =>
    rw [Analysis.runOn_cached_miss r hfind, Analysis.runOn_cached_miss r hfind]
    have hm := h { r with cache := r.cache.recordMiss k } _ rfl
    revert hm
    generalize x.runOn { r with cache := r.cache.recordMiss k } = p
    generalize y.runOn { r with cache := r.cache.recordMiss k } = q
    intro hm
    cases hm with
    | ok huv hr =>
      cases huv
      cases hr
      exact .ok rfl rfl
    | error he hr => exact .error he hr
    | excused he => exact .excused he

/-- What is not cancelled ends alike on both sides. -/
theorem Sim.fst_eq {α : Type} {x y : Analysis α} (h : unlessCancelled.Sim Eq x y) {r : Run}
    (hx : x.Uncancelled r) : (x.runOn r).1 = (y.runOn r).1 := by
  have hm := h r r rfl
  revert hm
  generalize hrun : x.runOn r = p
  generalize y.runOn r = q
  intro hm
  cases hm with
  | ok huv _ => rw [huv]
  | error _ _ => rfl
  | excused he => exact absurd he (Bool.eq_false_iff.mp (hx _ _ hrun))

end Link

/-- A fault that is not met makes no difference, and one that is met cancels. -/
def Simulation.unlessCancelled (a : IndexAccess) : Simulation a.brittle a.fails where
  toLink := Link.unlessCancelled
  refs := Eq
  sameGroups := SameGroups.of_eq
  settings hr := by
    rw [show _ = _ from hr]
    exact .refl _
  checkpoint := Link.unlessCancelled_checkpoint
  ask := Link.unlessCancelled_ask
  callers := Link.Sim.callerSearch rfl
    (fun _ _ hr => congrArg (fun r => CallerSearch.forSettings r.settings) hr)
    Link.unlessCancelled_ask
  cached k hk := by
    rw [k.related_eq] at hk ⊢
    exact Link.unlessCancelled_cached hk

namespace Inquiry

theorem simulates {a : IndexAccess} {plan : FaultPlan} (S : Simulation a plan) (hS : S.Strict)
    (hcount : ∀ name amount, S.Sim Eq (Analysis.count name amount) (Analysis.count name amount)) :
    ∀ q : Inquiry, S.Sim Eq (q.perform a) (q.perform (a.withFaults plan))
  | projectSites => S.inProject
  | typeSites type => S.ofType type
  | methodSites m => S.inMethod m
  | crossings type field within => S.crossings type field within
  | relations seed => S.resolveRelations hS hcount seed
  | sites seed => (S.resolveRelations hS hcount seed).bindEq (fun _ => .pure rfl)
  | hierarchy seed => S.buildHierarchy hS hcount seed

/-- The analysis meets neither a fault nor a cancellation on the run. Since no fallback stops a
cancellation, it is enough that the analysis would not be cancelled if each fault were one. -/
def Undisturbed (q : Inquiry) (a : IndexAccess) (r : Run) : Prop := (q.perform a.brittle).Uncancelled r

/-- On a faithful run an analysis that nothing disturbs ends as on a fresh run without faults. -/
theorem Undisturbed.eq_outcome {q : Inquiry} {a : IndexAccess} {r : Run} {s : Settings}
    (h : q.Undisturbed a r) (hr : r.Faithful a s) :
    ((q.perform a).runOn r).1 = (q.perform a.faultless).outcome s := by
  have hsame : ((q.perform a.brittle).runOn r).1 = ((q.perform a).runOn r).1 :=
    Link.Sim.fst_eq (q.simulates (Simulation.unlessCancelled a) (fun _ _ he => he)
      (by rintro _ _ r _ rfl; exact .ok rfl rfl)) h
  have hrefines : a.faultless.Refines s (fun e => e.isCancellation = true)
      (q.perform a.brittle) (q.perform a.faultless) := by
    refine Link.Sim.refines (q.simulates (Simulation.refined a.brittle a.brittle_mayFail s)
      (fun _ _ he => he.1) ?_)
    rintro _ _ r r' ⟨hr, hr'⟩
    exact .ok rfl ⟨hr, hr'.settings, hr'.sound, hr'.quiet⟩
  rw [← hsame]
  rcases hrun : (q.perform a.brittle).runOn r with ⟨res, r'⟩
  obtain ⟨-, -, hres | ⟨e, rfl, he⟩⟩ := hrefines r res r' hrun hr.1 hr.2
  · exact hres
  · rw [h e r' hrun] at he
    cases he

end Inquiry

/-! ### Histories -/

/-- An analysis on a shared run, with the faults and the token that it meets. -/
structure Event where
  inquiry : Inquiry
  faults : FaultPlan := fun _ _ => none
  token : Token := {}

namespace Event

variable (idx : Index) (e : Event)

/-- The index as the analysis finds it. -/
def access : IndexAccess where
  index := idx
  fails := e.faults

/-- The analysis. -/
def analysis : Analysis e.inquiry.Answer := e.inquiry.perform (e.access idx)

/-- The shared run as the analysis finds it. -/
def begin (r : Run) : Run := { r with token := e.token }

/-- The shared run after the analysis, however that ends. -/
def finish (r : Run) : Run := ((e.analysis idx).runOn (e.begin r)).2

end Event

/-- The shared run after some analyses over an index. -/
def Run.after (idx : Index) (s : Settings) (history : List Event) : Run :=
  history.foldl (fun r e => e.finish idx r) { settings := s }

theorem Event.finish_faithful {idx : Index} {s : Settings} (e : Event) {r : Run}
    (hr : r.Faithful { index := idx } s) :
    (e.finish idx r).Faithful { index := idx } s :=
  (e.inquiry.composed_perform (e.access idx)).faithful (s := s) rfl hr

theorem Run.after_faithful (idx : Index) (s : Settings) (history : List Event) :
    (Run.after idx s history).Faithful { index := idx } s := by
  have hrun : ∀ r : Run, r.Faithful { index := idx } s →
      (history.foldl (fun r e => e.finish idx r) r).Faithful { index := idx } s := by
    induction history with
    | nil => exact fun r hr => hr
    | cons e history ih => exact fun r hr => ih _ (e.finish_faithful hr)
  exact hrun _ ⟨rfl, Run.sound_of_empty rfl⟩

/-- However the analyses before it ended, at every stage of an analysis all that the shared run
remembers are outcomes of fresh searches over the index without faults; and if the analysis meets no
fault and no cancellation, it ends as on a fresh run. -/
theorem remembers_fresh_outcomes (idx : Index) (s : Settings) (history : List Event) (e : Event) :
    (∀ r, Analysis.Stage (e.access idx) (e.analysis idx) (e.begin (Run.after idx s history)) r →
      ∀ k v, r.cache.find? k = some v →
        Analysis.outcome s (IndexAccess.searchFor { index := idx } k) = .ok v) ∧
    (e.inquiry.Undisturbed (e.access idx) (e.begin (Run.after idx s history)) →
      ((e.analysis idx).runOn (e.begin (Run.after idx s history))).1 =
        (e.inquiry.perform { index := idx }).outcome s) := by
  have hbegin : (e.begin (Run.after idx s history)).Faithful (e.access idx) s :=
    Run.after_faithful idx s history
  refine ⟨fun r hstage k v hfind => ?_, fun h => h.eq_outcome hbegin⟩
  obtain ⟨hs, hsound⟩ := hstage.faithful hbegin
  have hv := hsound k v hfind
  rwa [hs] at hv

/-- A search for relations that is cancelled at its third poll, then one for crossings that fails at
the holders of transfer objects. -/
def Orders.troubles : List Event := [
  { inquiry := .relations seed, token := { cancelAfter := some 2 } },
  { inquiry := .crossings "OrderDto" "id" none, faults := access.fails }]

/-- The sites are remembered from the troubled analyses, the crossings that failed are not, and the
tree comes out as ever. -/
theorem remembers_fresh_outcomes_orders :
    (Run.after Orders.index {} Orders.troubles).cache.find? (.crossings "OrderDto" "id" none) =
      none ∧
    (∃ sites, (Run.after Orders.index {} Orders.troubles).cache.find? .projectSites = some sites ∧
      sites.length = 1 ∧
      Analysis.outcome {} (IndexAccess.searchFor { index := Orders.index } .projectSites) =
        .ok sites) ∧
    ((buildHierarchy { index := Orders.index } Orders.seed).runOn
        { Run.after Orders.index {} Orders.troubles with token := {} }).1 =
      (buildHierarchy { index := Orders.index } Orders.seed).outcome {} := by
  obtain ⟨hremembers, hends⟩ := remembers_fresh_outcomes Orders.index {} Orders.troubles
    { inquiry := .hierarchy Orders.seed }
  have hlength : ((Run.after Orders.index {} Orders.troubles).cache.find? .projectSites).map
      List.length = some 1 := by
    decide +kernel
  obtain ⟨sites, hfind, hsites⟩ := Option.map_eq_some_iff.1 hlength
  refine ⟨by decide +kernel, ⟨sites, hfind, hsites, hremembers _ (.start _ _) _ _ hfind⟩, hends ?_⟩
  exact buildHierarchy_uncancelled (by rintro _ _ _ ⟨⟩) Token.quiet_default Orders.seed

end FieldTrace
