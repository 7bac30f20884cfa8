import FieldTrace.Proofs.Simulation

/-! # Outcomes that do not depend on the run

An index is steady if the same question always meets the same fate. Over a steady index every
analysis has an outcome of its own: what it answers on a fresh run with given settings. A run is
sound if everything it remembers is the outcome of the search behind it; from a sound run on which
nobody cancels, an analysis ends with its outcome and leaves a sound run (`Determines`).

If the first of two accesses may also fail in other places, or be cancelled, it ends with the same
outcome or with such a failure (`Refines`); its cache stays sound all the same. -/

namespace FieldTrace

/-! ### Quiet tokens, steady indexes, sound runs -/

/-- Nobody has cancelled, and the token will not cancel itself. -/
structure Token.Quiet (t : Token) : Prop where
  isCancelled : t.isCancelled = false
  cancelAfter : t.cancelAfter = none

theorem Token.Quiet.poll {t : Token} (h : t.Quiet) : t.poll.Quiet :=
  ⟨by simp [Token.poll, h.isCancelled, h.cancelAfter], h.cancelAfter⟩

theorem Token.quiet_default : ({} : Token).Quiet := ⟨rfl, rfl⟩

/-- Whether a question fails does not depend on the questions before. -/
def IndexAccess.Steady (a : IndexAccess) : Prop := ∀ n call, a.fails n call = a.fails 0 call

/-- What an analysis answers on a fresh run. -/
def Analysis.outcome {α : Type} (s : Settings) (x : Analysis α) : Except Failure α :=
  (x.runOn { settings := s }).1

/-- Everything the run remembers is the outcome of the search behind it. -/
def Run.Sound (a : IndexAccess) (r : Run) : Prop :=
  ∀ (k : CacheKey) (v : k.Answer), r.cache.find? k = some v →
    Analysis.outcome r.settings (a.searchFor k) = .ok v

/-- A sound run with given settings on which nobody cancels. -/
structure Run.Settled (a : IndexAccess) (s : Settings) (r : Run) : Prop where
  settings : r.settings = s
  sound : r.Sound a
  quiet : r.token.Quiet

namespace Run

variable {a : IndexAccess} {s : Settings} {r : Run}

/-- A run that remembers nothing is sound. -/
theorem sound_of_empty (h : r.cache.entries = []) : r.Sound a := by
  intro k v hv
  rw [Cache.find?, h] at hv
  simp [Cache.findIn] at hv

theorem settled_fresh (a : IndexAccess) (s : Settings) : Run.Settled a s { settings := s } :=
  ⟨rfl, sound_of_empty rfl, Token.quiet_default⟩

theorem Sound.hit (h : r.Sound a) (k : CacheKey) :
    Run.Sound a { r with cache := r.cache.recordHit k } := h

theorem Sound.miss (h : r.Sound a) (k : CacheKey) :
    Run.Sound a { r with cache := r.cache.recordMiss k } := h

theorem Sound.store (h : r.Sound a) {k : CacheKey} {v : k.Answer}
    (hv : Analysis.outcome r.settings (a.searchFor k) = .ok v) :
    Run.Sound a { r with cache := r.cache.store k v } := by
  intro k' v' hfind
  by_cases hk : k = k'
  · subst hk
    rw [Cache.find?_store_self, Option.some.injEq] at hfind
    exact hfind ▸ hv
  · rw [Cache.find?_store_of_ne _ hk] at hfind
    exact h k' v' hfind

end Run

/-- Over a steady index a question fails whenever it is put, or never. -/
theorem IndexAccess.Steady.runOn_ask {a : IndexAccess} (ha : a.Steady) (r : Run) {α : Type}
    (call : IndexCall) (answer : α) :
    (a.ask call answer).runOn r =
      (match a.fails 0 call with
        | some e => .error e
        | none => .ok answer,
        { r with indexCalls := r.indexCalls + 1 }) := by
  have hfails := ha r.indexCalls call
  cases hfirst : a.fails 0 call with
  | none => simp only [Analysis.runOn_ask, hfails, hfirst]
  | some e => simp only [Analysis.runOn_ask, hfails, hfirst]

/-! ### Determined computations -/

/-- On every settled run the computation ends with its outcome, and the run stays settled. -/
def IndexAccess.Determines {α : Type} (a : IndexAccess) (s : Settings) (x : Analysis α) : Prop :=
  ∀ r : Run, r.Settled a s → ∃ r', x.runOn r = (x.outcome s, r') ∧ r'.Settled a s

/-- A remembered answer is the outcome of the search behind it. -/
theorem IndexAccess.Determines.cached {a : IndexAccess} {s : Settings} {k : CacheKey}
    (h : a.Determines s (a.searchFor k)) {r : Run} (hr : r.Settled a s) :
    ∃ r', (Analysis.cached k (a.searchFor k)).runOn r =
      (Analysis.outcome s (a.searchFor k), r') ∧ r'.Settled a s := by
  cases hfind : r.cache.find? k with
  | some v =>
    have hv := hr.sound k v hfind
    rw [hr.settings] at hv
    rw [Analysis.runOn_cached_hit r hfind, hv]
    exact ⟨_, rfl, hr.settings, hr.sound.hit k, hr.quiet⟩
  | none =>
    obtain ⟨r', hrun, hr'⟩ := h { r with cache := r.cache.recordMiss k }
      ⟨hr.settings, hr.sound.miss k, hr.quiet⟩
    rw [Analysis.runOn_cached_miss r hfind, hrun]
    cases hout : Analysis.outcome s (a.searchFor k) with
    | error e => exact ⟨r', rfl, hr'⟩
    | ok v =>
      have hstore := hr'.sound.store (by rw [hr'.settings]; exact hout)
      exact ⟨_, rfl, hr'.settings, hstore, hr'.quiet⟩

/-! ### Two settled runs -/

/-- Both runs are settled, each for settings of its own. -/
def Link.settled (a : IndexAccess) (s s' : Settings) : Link where
  rel r r' := r.Settled a s ∧ r'.Settled a s'
  excused _ _ := False
  cancels := True

namespace Link

variable {a : IndexAccess} {s s' : Settings}

theorem settled_checkpoint :
    (Link.settled a s s').Sim Eq Analysis.checkpoint Analysis.checkpoint := by
  rintro r r' ⟨hr, hr'⟩
  simp only [Analysis.runOn_checkpoint, hr.quiet.poll.isCancelled, hr'.quiet.poll.isCancelled,
    Bool.false_eq_true, if_false]
  exact .ok rfl ⟨⟨hr.settings, hr.sound, hr.quiet.poll⟩, ⟨hr'.settings, hr'.sound, hr'.quiet.poll⟩⟩

theorem settled_ask (h : a.Steady) {α : Type} (call : IndexCall) (answer : α) :
    (Link.settled a s s').Sim Eq (a.ask call answer) (a.ask call answer) := by
  rintro r r' ⟨hr, hr'⟩
  rw [Analysis.runOn_ask, Analysis.runOn_ask, h r.indexCalls call, h r'.indexCalls call]
  have hlinked : (Link.settled a s s').rel { r with indexCalls := r.indexCalls + 1 }
      { r' with indexCalls := r'.indexCalls + 1 } :=
    ⟨⟨hr.settings, hr.sound, hr.quiet⟩, ⟨hr'.settings, hr'.sound, hr'.quiet⟩⟩
  cases a.fails 0 call with
  | some e => exact .error (fun _ => trivial) hlinked
  | none => exact .ok rfl hlinked

/-- What ends alike on all settled runs ends as on a fresh run. -/
theorem Sim.determines {α : Type} {x : Analysis α} (h : (Link.settled a s s).Sim Eq x x) :
    a.Determines s x := by
  intro r hr
  have hm := h r _ ⟨hr, Run.settled_fresh a s⟩
  unfold Analysis.outcome
  revert hm
  generalize x.runOn r = p
  generalize x.runOn { settings := s } = q
  intro hm
  cases hm with
  | ok huv hr' => exact ⟨_, by rw [huv], hr'.1⟩
  | error _ hr' => exact ⟨_, rfl, hr'.1⟩
  | excused he => exact he.elim

theorem settled_cached {k : CacheKey}
    (h : (Link.settled a s s).Sim Eq (a.searchFor k) (a.searchFor k)) :
    (Link.settled a s s).Sim Eq (Analysis.cached k (a.searchFor k))
      (Analysis.cached k (a.searchFor k)) := by
  rintro r r' ⟨hr, hr'⟩
  obtain ⟨q, hrun, hq⟩ := h.determines.cached hr
  obtain ⟨q', hrun', hq'⟩ := h.determines.cached hr'
  rw [hrun, hrun']
  cases Analysis.outcome s (a.searchFor k) with
  | error e => exact .error (fun _ => trivial) ⟨hq, hq'⟩
  | ok v => exact .ok rfl ⟨hq, hq'⟩

end Link

/-- Over a steady index, analyses on settled runs simulate each other. -/
def Simulation.settled (a : IndexAccess) (h : a.Steady) (s : Settings) : Simulation a a.fails where
  toLink := Link.settled a s s
  refs := Eq
  sameGroups := SameGroups.of_eq
  settings hr := by
    rw [hr.1.settings, hr.2.settings]
    exact .refl s
  checkpoint := Link.settled_checkpoint
  ask := Link.settled_ask h
  callers := Link.Sim.callerSearch rfl
    (fun _ _ hr => by rw [hr.1.settings, hr.2.settings]) (Link.settled_ask h)
  cached k hk := by
    rw [k.related_eq] at hk ⊢
    exact Link.settled_cached hk

theorem IndexAccess.Steady.determines_searchFor {a : IndexAccess} (h : a.Steady) (s : Settings)
    (k : CacheKey) : a.Determines s (a.searchFor k) := by
  have hk := (Simulation.settled a h s).searchFor k
  rw [show (Simulation.settled a h s).refs = Eq from rfl, k.related_eq] at hk
  exact Link.Sim.determines hk

namespace Link

variable {a : IndexAccess} {s s' : Settings}

/-- What is remembered on either side is the outcome of a search, and these are alike. -/
theorem settled_cached_apart (ha : a.Steady) {k : CacheKey}
    (h : (Link.settled a s s').Sim Eq (a.searchFor k) (a.searchFor k)) :
    (Link.settled a s s').Sim Eq (Analysis.cached k (a.searchFor k))
      (Analysis.cached k (a.searchFor k)) := by
  rintro r r' ⟨hr, hr'⟩
  have hsame : Analysis.outcome s (a.searchFor k) = Analysis.outcome s' (a.searchFor k) :=
    (h _ _ ⟨Run.settled_fresh a s, Run.settled_fresh a s'⟩).fst_eq (fun _ _ he => he)
  obtain ⟨q, hrun, hq⟩ := (ha.determines_searchFor s k).cached hr
  obtain ⟨q', hrun', hq'⟩ := (ha.determines_searchFor s' k).cached hr'
  rw [hrun, hrun', hsame]
  cases Analysis.outcome s' (a.searchFor k) with
  | error e => exact .error (fun _ => trivial) ⟨hq, hq'⟩
  | ok v => exact .ok rfl ⟨hq, hq'⟩

end Link

/-- The settings agree in what a search reads. -/
structure Settings.SameSearches (s s' : Settings) : Prop where
  implementationLimit : s.implementationLimit = s'.implementationLimit
  preferNativeHierarchy : s.preferNativeHierarchy = s'.preferNativeHierarchy

/-- Over a steady index, searches on settled runs simulate each other, though the settings may show
the results in different ways. -/
def SearchSimulation.settled (a : IndexAccess) (ha : a.Steady) (s s' : Settings)
    (h : s.SameSearches s') : SearchSimulation a a.fails where
  toLink := Link.settled a s s'
  refs := Eq
  sameGroups := SameGroups.of_eq
  implementationLimit hr := by
    rw [hr.1.settings, hr.2.settings]
    exact h.implementationLimit
  checkpoint := Link.settled_checkpoint
  ask := Link.settled_ask ha
  callers := Link.Sim.callerSearch rfl
    (fun _ _ hr => by
      rw [hr.1.settings, hr.2.settings, CallerSearch.forSettings, CallerSearch.forSettings,
        h.preferNativeHierarchy])
    (Link.settled_ask ha)
  cached k hk := by
    rw [k.related_eq] at hk ⊢
    exact Link.settled_cached_apart ha hk

/-! ### A run with further failures beside a settled one -/

/-- The first access may fail where the second does not: its failures are then excusable. -/
structure IndexAccess.MayFail (a : IndexAccess) (plan : IndexCall → Option Failure)
    (excusable : Failure → Prop) : Prop where
  cancelled : excusable .analysisCancelled
  ask : ∀ n call, a.fails n call = plan call ∨ ∃ e, a.fails n call = some e ∧ excusable e

/-- The first run is sound for the second access, the second run is settled for it; a failure of the
first analysis is excused if it is excusable and has left the run sound. -/
def Link.refined (b : IndexAccess) (s : Settings) (excusable : Failure → Prop) : Link where
  rel r r' := (r.settings = s ∧ r.Sound b) ∧ r'.Settled b s
  excused e r := excusable e ∧ r.settings = s ∧ r.Sound b
  cancels := True

/-- From every run that is sound for the second access the first analysis ends with the outcome of
the second or with an excusable failure, and leaves such a run. -/
def IndexAccess.Refines {α : Type} (b : IndexAccess) (s : Settings) (excusable : Failure → Prop)
    (x y : Analysis α) : Prop :=
  ∀ r res r', x.runOn r = (res, r') → r.settings = s → r.Sound b →
    r'.settings = s ∧ r'.Sound b ∧ (res = y.outcome s ∨ ∃ e, res = .error e ∧ excusable e)

namespace Link

variable {a b : IndexAccess} {plan : IndexCall → Option Failure} {s : Settings}
  {excusable : Failure → Prop}

theorem refined_checkpoint (h : excusable .analysisCancelled) :
    (Link.refined b s excusable).Sim Eq Analysis.checkpoint Analysis.checkpoint := by
  rintro r r' ⟨⟨hs, hsound⟩, hr'⟩
  simp only [Analysis.runOn_checkpoint, hr'.quiet.poll.isCancelled, Bool.false_eq_true, if_false]
  split
  · exact .excused ⟨h, hs, hsound⟩
  · exact .ok rfl ⟨⟨hs, hsound⟩, ⟨hr'.settings, hr'.sound, hr'.quiet.poll⟩⟩

theorem refined_ask (h : a.MayFail plan excusable) {α : Type} (call : IndexCall) (answer : α) :
    (Link.refined b s excusable).Sim Eq (a.ask call answer)
      ((a.withFaults (fun _ => plan)).ask call answer) := by
  rintro r r' ⟨⟨hs, hsound⟩, hr'⟩
  rw [Analysis.runOn_ask, Analysis.runOn_ask,
    show (a.withFaults (fun _ => plan)).fails r'.indexCalls call = plan call from rfl]
  have hlinked : (Link.refined b s excusable).rel { r with indexCalls := r.indexCalls + 1 }
      { r' with indexCalls := r'.indexCalls + 1 } :=
    ⟨⟨hs, hsound⟩, ⟨hr'.settings, hr'.sound, hr'.quiet⟩⟩
  rcases h.ask r.indexCalls call with hplan | ⟨e, hfail, he⟩
  · rw [hplan]
    cases plan call with
    | some e => exact .error (fun _ => trivial) hlinked
    | none => exact .ok rfl hlinked
  · rw [hfail]
    exact .excused ⟨he, hs, hsound⟩

/-- Whatever happens to the search, the remembered answer is the outcome for the second access. -/
theorem refined_cached (hb : b.Steady) {k : CacheKey}
    (h : (Link.refined b s excusable).Sim Eq (a.searchFor k) (b.searchFor k)) :
    (Link.refined b s excusable).Sim Eq (Analysis.cached k (a.searchFor k))
      (Analysis.cached k (b.searchFor k)) := by
  rintro r r' ⟨⟨hs, hsound⟩, hr'⟩
  obtain ⟨q', hrun', hq'⟩ := (hb.determines_searchFor s k).cached hr'
  rw [hrun']
  cases hfind : r.cache.find? k with
  | some v =>
    have hv := hsound k v hfind
    rw [hs] at hv
    rw [Analysis.runOn_cached_hit r hfind, hv]
    exact .ok rfl ⟨⟨hs, hsound.hit k⟩, hq'⟩
  | none =>
    rw [Analysis.runOn_cached_miss r hfind]
    have hm := h { r with cache := r.cache.recordMiss k } { settings := s }
      ⟨⟨hs, hsound.miss k⟩, Run.settled_fresh b s⟩
    unfold Analysis.outcome
    revert hm
    generalize (a.searchFor k).runOn { r with cache := r.cache.recordMiss k } = p
    generalize hfresh : (b.searchFor k).runOn { settings := s } = q
    intro hm
    cases hm with
    | @ok u v p' q'' huv hr =>
      have hout : Analysis.outcome p'.settings (b.searchFor k) = .ok u := by
        rw [hr.1.1, Analysis.outcome, hfresh, huv]
      exact .ok huv ⟨⟨hr.1.1, hr.1.2.store hout⟩, hq'⟩
    | error he hr => exact .error he ⟨hr.1, hq'⟩
    | excused he => exact .excused he

theorem Sim.refines {α : Type} {x y : Analysis α} (h : (Link.refined b s excusable).Sim Eq x y) :
    b.Refines s excusable x y := by
  intro r res r' hrun hs hsound
  have hm := h r _ ⟨⟨hs, hsound⟩, Run.settled_fresh b s⟩
  rw [hrun] at hm
  unfold Analysis.outcome
  revert hm
  generalize y.runOn { settings := s } = q
  intro hm
  cases hm with
  | ok huv hr => exact ⟨hr.1.1, hr.1.2, .inl (by rw [huv])⟩
  | error _ hr => exact ⟨hr.1.1, hr.1.2, .inl rfl⟩
  | excused he => exact ⟨he.2.1, he.2.2, .inr ⟨_, rfl, he.1⟩⟩

end Link

/-- An access that may fail further refines a steady one. -/
def Simulation.refined (a : IndexAccess) {plan : IndexCall → Option Failure}
    {excusable : Failure → Prop} (h : a.MayFail plan excusable) (s : Settings) :
    Simulation a (fun _ => plan) where
  toLink := Link.refined (a.withFaults (fun _ => plan)) s excusable
  refs := Eq
  sameGroups := SameGroups.of_eq
  settings hr := by
    rw [hr.1.1, hr.2.settings]
    exact .refl s
  checkpoint := Link.refined_checkpoint h.cancelled
  ask := Link.refined_ask h
  callers := Link.Sim.callerSearch rfl
    (fun _ _ hr => by rw [hr.1.1, hr.2.settings]) (Link.refined_ask h)
  cached k hk := by
    rw [k.related_eq] at hk ⊢
    exact Link.refined_cached (fun _ _ => rfl) hk

namespace IndexAccess

variable {a : IndexAccess} {s : Settings}

/-! ### Without the faults -/

/-- The index without faults. -/
def faultless (a : IndexAccess) : IndexAccess := a.withFaults (fun _ _ => none)

theorem faultless_mayFail (a : IndexAccess) : a.MayFail (fun _ => none) (fun _ => True) where
  cancelled := trivial
  ask n call := by
    cases h : a.fails n call with
    | none => exact .inl rfl
    | some e => exact .inr ⟨e, rfl, trivial⟩

/-- Whatever the index fails at, crossings that are found are those of the index. -/
theorem faultless_refines_crossings (a : IndexAccess) (s : Settings) (type field : String)
    (within : Option MethodId) :
    a.faultless.Refines s (fun _ => True) (Crossings.of a type field within)
      (Crossings.of a.faultless type field within) :=
  Link.Sim.refines ((Simulation.refined a a.faultless_mayFail s).crossings type field within)

/-! ### Steady indexes -/

/-- From every sound run the analysis ends with its outcome, unless it is cancelled, and leaves a
sound run. -/
def Reproduces {α : Type} (a : IndexAccess) (s : Settings) (x : Analysis α) : Prop :=
  a.Refines s (fun e => e.isCancellation = true) x x

theorem Steady.mayFail (h : a.Steady) :
    a.MayFail (a.fails 0) (fun e => e.isCancellation = true) :=
  ⟨rfl, fun n call => .inl (h n call)⟩

theorem Steady.withFaults_eq (h : a.Steady) : a.withFaults (fun _ => a.fails 0) = a := by
  have hfails : (fun _ => a.fails 0) = a.fails := by
    funext n call
    exact (h n call).symm
  rw [withFaults, hfails]

theorem Steady.reproduces {α : Type} {x : IndexAccess → Analysis α} (h : a.Steady)
    (hx : (Simulation.refined a h.mayFail s).Sim Eq (x a) (x (a.withFaults (fun _ => a.fails 0)))) :
    a.Reproduces s (x a) := by
  have hrefines := Link.Sim.refines hx
  rwa [h.withFaults_eq] at hrefines

theorem Steady.reproduces_children (h : a.Steady) (t : Task) :
    a.Reproduces s (Expansion.children a t) :=
  h.reproduces (x := fun b => Expansion.children b t)
    (((Simulation.refined a h.mayFail s).sameChildren t).children (fun _ _ he => he.1))

theorem Steady.reproduces_crossings (h : a.Steady) (type field : String)
    (within : Option MethodId) : a.Reproduces s (Crossings.of a type field within) :=
  h.reproduces (x := fun b => Crossings.of b type field within)
    ((Simulation.refined a h.mayFail s).crossings type field within)

/-- What ends otherwise than by cancellation ends with the outcome. -/
theorem Reproduces.eq_outcome {α : Type} {x : Analysis α} (h : a.Reproduces s x) {r r' : Run}
    {res : Except Failure α} (hrun : x.runOn r = (res, r')) (hs : r.settings = s)
    (hsound : r.Sound a) (hres : ∀ e, res = .error e → e.isCancellation = false) :
    res = x.outcome s ∧ r'.settings = s ∧ r'.Sound a := by
  obtain ⟨hs', hsound', hout⟩ := h r res r' hrun hs hsound
  rcases hout with hout | ⟨e, he, hcancel⟩
  · exact ⟨hout, hs', hsound'⟩
  · rw [hres e he] at hcancel
    cases hcancel

end IndexAccess

/-! ### Runs that nobody cancels -/

/-- No question to the index fails by cancellation. -/
def IndexAccess.Calm (a : IndexAccess) : Prop :=
  ∀ n call e, a.fails n call = some e → e.isCancellation = false

/-- The analysis does not end in a cancellation. -/
def Analysis.Uncancelled {α : Type} (r : Run) (x : Analysis α) : Prop :=
  ∀ e r', x.runOn r = (.error e, r') → e.isCancellation = false

/-- Over an index that does not cancel, a quiet token stays quiet. -/
theorem IndexAccess.Calm.stable {a : IndexAccess} (h : a.Calm) :
    Run.Stable a (fun r => r.token.Quiet) False where
  cache hr _ := hr
  indexCalls hr _ := hr
  poll hr := hr.poll
  poll_cancels hr hcancel := by
    rw [hr.poll.isCancelled] at hcancel
    cases hcancel
  fails_cancels hfail hcancel := by
    rw [h _ _ _ hfail] at hcancel
    cases hcancel

theorem Link.Sim.uncancelled {α : Type} {x : Analysis α} {I : Run → Prop}
    (h : (Link.keeping I False).Sim Eq x x) {r : Run} (hr : I r) : x.Uncancelled r :=
  fun e r' hrun => Bool.eq_false_iff.mpr ((h.keeps hr).2 e r' hrun)

end FieldTrace
