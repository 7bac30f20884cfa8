import FieldTrace.Hierarchy.Expansion
import FieldTrace.Proofs.CallerGroups
import FieldTrace.Proofs.Runs

/-! # Linked runs

A `Link` says which pairs of runs belong together. Two analyses simulate each other along a link if
from linked runs they end alike: with related answers or the same failure, and again in linked runs;
the first one may also end in a failure that the link excuses. This is kept by sequencing and by
falling back on a failed branch.

A simulation is a link that the basic operations respect: polling, asking the index, searching for
callers, remembering. How much of the settings the two runs have to share depends on how far it is to
reach: to the searches, to the children of a node (`LocalSimulation`), to whole trees
(`Simulation`). -/

namespace FieldTrace

/-! ### Links -/

/-- Which runs belong together, which failures of the first analysis are excused, given the run that
they leave behind, and whether both analyses may end in a cancellation. -/
structure Link where
  rel : Run → Run → Prop
  excused : Failure → Run → Prop
  cancels : Prop

namespace Link

variable {α β γ δ : Type}

/-- The two ends match. -/
inductive Matches (L : Link) (R : α → β → Prop) :
    Except Failure α × Run → Except Failure β × Run → Prop where
  | ok {u : α} {v : β} {r r' : Run} (h : R u v) (hr : L.rel r r') :
    L.Matches R (.ok u, r) (.ok v, r')
  | error {e : Failure} {r r' : Run} (he : e.isCancellation = true → L.cancels) (hr : L.rel r r') :
    L.Matches R (.error e, r) (.error e, r')
  | excused {e : Failure} {r : Run} {q : Except Failure β × Run} (h : L.excused e r) :
    L.Matches R (.error e, r) q

/-- If no failure is excused, equal answers mean equal ends. -/
theorem Matches.fst_eq {L : Link} {p q : Except Failure α × Run} (h : L.Matches Eq p q)
    (hL : ∀ e r, ¬ L.excused e r) : p.1 = q.1 := by
  cases h with
  | ok huv _ => rw [huv]
  | error _ _ => rfl
  | excused he => exact absurd he (hL _ _)

/-- From linked runs the two analyses end alike. -/
def Sim (L : Link) (R : α → β → Prop) (x : Analysis α) (y : Analysis β) : Prop :=
  ∀ r r', L.rel r r' → L.Matches R (x.runOn r) (y.runOn r')

/-- From some linked run the first analysis finds the value. -/
def Finds (L : Link) (x : Analysis α) (v : α) : Prop :=
  ∃ r r' q, L.rel r r' ∧ x.runOn r = (.ok v, q)

theorem Finds.of_attempt {L : Link} {x : Analysis α} {v : α}
    (h : L.Finds (Analysis.attempt x) (some v)) : L.Finds x v := by
  obtain ⟨r, r', q, hr, hrun⟩ := h
  obtain ⟨res, hres, hv, -⟩ := Analysis.runOn_attempt_eq_ok r hrun
  cases res with
  | error e => cases hv
  | ok u =>
    cases hv
    exact ⟨r, r', q, hr, hres⟩

namespace Sim

variable {L : Link} {R : α → β → Prop}

protected theorem pure {u : α} {v : β} (h : R u v) : L.Sim R (pure u) (pure v) :=
  fun _ _ hr => .ok h hr

protected theorem throw {e : Failure} (he : e.isCancellation = true → L.cancels) :
    L.Sim R (throw e) (throw e) :=
  fun _ _ hr => .error he hr

protected theorem get : L.Sim L.rel get get := fun _ _ hr => .ok hr hr

/-- Sequencing, where the second analyses start from answers that the first ones find. -/
theorem bindFound {x : Analysis α} {y : Analysis β} {f : α → Analysis γ} {g : β → Analysis δ}
    {R' : γ → δ → Prop} (h : L.Sim R x y)
    (hf : ∀ u v, L.Finds x u → R u v → L.Sim R' (f u) (g v)) : L.Sim R' (x >>= f) (y >>= g) := by
  intro r r' hr
  rw [Analysis.runOn_bind, Analysis.runOn_bind]
  have hm := h r r' hr
  revert hm
  generalize hx : x.runOn r = p
  generalize y.runOn r' = q
  intro hm
  cases hm with
  | ok huv hr' => exact hf _ _ ⟨r, r', _, hr, hx⟩ huv _ _ hr'
  | error he hr' => exact .error he hr'
  | excused he => exact .excused he

protected theorem bind {x : Analysis α} {y : Analysis β} {f : α → Analysis γ} {g : β → Analysis δ}
    {R' : γ → δ → Prop} (h : L.Sim R x y) (hf : ∀ u v, R u v → L.Sim R' (f u) (g v)) :
    L.Sim R' (x >>= f) (y >>= g) :=
  h.bindFound (fun u v _ => hf u v)

/-- Sequencing after an answer that is the same on both sides. -/
theorem bindEq {x y : Analysis α} {f : α → Analysis γ} {g : α → Analysis δ} {R' : γ → δ → Prop}
    (h : L.Sim Eq x y) (hf : ∀ v, L.Sim R' (f v) (g v)) : L.Sim R' (x >>= f) (y >>= g) :=
  h.bind (fun u _ huv => huv ▸ hf u)

/-- A failed branch fails on both sides, provided that only cancellation is excused. -/
theorem attempt {x y : Analysis α} (hL : ∀ e r, L.excused e r → e.isCancellation = true)
    (h : L.Sim Eq x y) : L.Sim Eq (Analysis.attempt x) (Analysis.attempt y) := by
  intro r r' hr
  rw [Analysis.runOn_attempt, Analysis.runOn_attempt]
  have hm := h r r' hr
  revert hm
  generalize x.runOn r = p
  generalize y.runOn r' = q
  intro hm
  cases hm with
  | ok huv hr' => exact .ok (by rw [huv]) hr'
  | @error e _ _ hcancels hr' =>
    by_cases he : e.isCancellation = true
    · simpa [he] using Matches.error hcancels hr'
    · simpa [he] using Matches.ok rfl hr'
  | @excused e _ _ he => simpa [hL _ _ he] using Matches.excused he

end Sim

end Link

/-! ### Searches behind remembered answers -/

/-- How the answer to a question is found that is not remembered. -/
def IndexAccess.searchFor (a : IndexAccess) : (k : CacheKey) → Analysis k.Answer
  | .projectSites => Detection.searchProject a
  | .methodSites m => Detection.searchMethod a m
  | .typeSites type => Detection.searchType a type
  | .crossings type field within => Crossings.search a type field within
  | .callers m => Callers.search a m
  | .implementations m => Callers.searchImplementations a m
  | .references f => a.fieldReferences f
  | .memberCalls owner name => a.memberCalls owner name

/-- Two answers are the same; answers about callers need only be related. -/
def CacheKey.Related (refs : List Reference → List Reference → Prop) :
    (k : CacheKey) → k.Answer → k.Answer → Prop
  | .callers _ => refs
  | .projectSites | .methodSites _ | .typeSites _ | .crossings _ _ _ | .implementations _
  | .references _ | .memberCalls _ _ => Eq

theorem CacheKey.related_eq (k : CacheKey) : k.Related Eq = Eq := by cases k <;> rfl

/-- The settings agree in all but the way callers are searched. -/
structure Settings.SameLimits (s s' : Settings) : Prop where
  maxDepth : s.maxDepth = s'.maxDepth
  callerLimit : s.callerLimit = s'.callerLimit
  callSiteLimit : s.callSiteLimit = s'.callSiteLimit
  mappingSiteLimit : s.mappingSiteLimit = s'.mappingSiteLimit
  implementationLimit : s.implementationLimit = s'.implementationLimit
  extraEntryPatterns : s.extraEntryPatterns = s'.extraEntryPatterns

theorem Settings.SameLimits.refl (s : Settings) : s.SameLimits s := ⟨rfl, rfl, rfl, rfl, rfl, rfl⟩

/-- The settings agree in what limits the children of a node. -/
structure Settings.SameWidths (s s' : Settings) : Prop where
  callerLimit : s.callerLimit = s'.callerLimit
  callSiteLimit : s.callSiteLimit = s'.callSiteLimit
  mappingSiteLimit : s.mappingSiteLimit = s'.mappingSiteLimit
  implementationLimit : s.implementationLimit = s'.implementationLimit
  extraEntryPatterns : s.extraEntryPatterns = s'.extraEntryPatterns

theorem Settings.SameLimits.widths {s s' : Settings} (h : s.SameLimits s') : s.SameWidths s' :=
  ⟨h.callerLimit, h.callSiteLimit, h.mappingSiteLimit, h.implementationLimit, h.extraEntryPatterns⟩

/-- The way callers are searched is a matter of the settings. -/
theorem Link.Sim.callerSearch {L : Link} {a b : IndexAccess} (hindex : b.index = a.index)
    (hsearch : ∀ r r', L.rel r r' →
      CallerSearch.forSettings r.settings = CallerSearch.forSettings r'.settings)
    (hask : ∀ (call : IndexCall) (answer : List Reference),
      L.Sim Eq (a.ask call answer) (b.ask call answer)) (m : MethodId) :
    L.Sim Eq (Callers.search a m) (Callers.search b m) := by
  refine Link.Sim.get.bind (fun r r' hr => ?_)
  rw [hsearch r r' hr]
  cases CallerSearch.forSettings r'.settings with
  | callGraph =>
    show L.Sim Eq (a.ask _ (a.index.callersOf m)) (b.ask _ (b.index.callersOf m))
    rw [hindex]
    exact hask _ _
  | referenceSearch =>
    show L.Sim Eq (a.ask _ (a.index.methodReferences m)) (b.ask _ (b.index.methodReferences m))
    rw [hindex]
    exact hask _ _

/-- Which questions to an index fail, given the number of questions before. -/
abbrev FaultPlan := Nat → IndexCall → Option Failure

/-- The same index with other faults. -/
abbrev IndexAccess.withFaults (a : IndexAccess) (plan : FaultPlan) : IndexAccess :=
  { a with fails := plan }

/-- A link between the runs of two accesses to one index that the basic operations respect. Of the
settings, the searches behind the children of a node read only how many implementations count. -/
structure SearchSimulation (a : IndexAccess) (plan : FaultPlan) extends Link where
  refs : List Reference → List Reference → Prop
  sameGroups : ∀ {as bs}, refs as bs → SameGroups as bs
  implementationLimit : ∀ {r r'}, rel r r' →
    r.settings.implementationLimit = r'.settings.implementationLimit
  checkpoint : toLink.Sim Eq Analysis.checkpoint Analysis.checkpoint
  ask : ∀ {α : Type} (call : IndexCall) (answer : α),
    toLink.Sim Eq (a.ask call answer) ((a.withFaults plan).ask call answer)
  callers : ∀ m, toLink.Sim refs (Callers.search a m) (Callers.search (a.withFaults plan) m)
  cached : ∀ k : CacheKey,
    toLink.Sim (k.Related refs) (a.searchFor k) ((a.withFaults plan).searchFor k) →
      toLink.Sim (k.Related refs) (Analysis.cached k (a.searchFor k))
        (Analysis.cached k ((a.withFaults plan).searchFor k))

/-- The same for the children of one node, which are limited by the settings as well. The depth of a
tree is no matter for them. -/
structure LocalSimulation (a : IndexAccess) (plan : FaultPlan) extends
    SearchSimulation a plan where
  widths : ∀ {r r'}, rel r r' → r.settings.SameWidths r'.settings
  implementationLimit := fun hr => (widths hr).implementationLimit

/-- The same for whole trees, which have to be of one depth. -/
structure Simulation (a : IndexAccess) (plan : FaultPlan) extends LocalSimulation a plan where
  settings : ∀ {r r'}, rel r r' → r.settings.SameLimits r'.settings
  widths := fun hr => (settings hr).widths

end FieldTrace
