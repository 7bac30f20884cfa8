import FieldTrace.Proofs.NextTypes
import FieldTrace.Proofs.Recursion

/-! # Relations as a closure

The relations of a seed field are those of all crossings of all types that crossings lead to from the
seed's type (`Resolution.Closes`). The search takes one type after the other off a queue and visits
it (`Resolution.Visits`); in between, what the crossings found so far lead to has been visited or is
in the queue (`Resolution.Partial`). -/

namespace FieldTrace

/-! ### Reachable types -/

/-- The types that crossings lead to from a type, step by step. -/
inductive Reaches (crossings : String → List Crossing) (start : String) : String → Prop where
  | refl : Reaches crossings start start
  | step {type : String} {c : Crossing} (h : Reaches crossings start type)
    (hc : c ∈ crossings type) : Reaches crossings start c.nextType

theorem Reaches.mono {crossings crossings' : String → List Crossing} {start type : String}
    (h : Reaches crossings start type)
    (hsub : ∀ t c, Reaches crossings start t → c ∈ crossings t → c ∈ crossings' t) :
    Reaches crossings' start type := by
  induction h with
  | refl => exact .refl
  | step h hc ih => exact ih.step (hsub _ _ h hc)

/-- The crossings of a type on a fresh run, none if the search for them fails. -/
def Crossings.expected (a : IndexAccess) (s : Settings) (field type : String) : List Crossing :=
  ((Crossings.of a type field none).outcome s).toOption.getD []

namespace Resolution

/-- The types are those that can be reached, and the relations and sites are those of all their
crossings; nothing is listed twice. -/
structure Closes (crossings : String → List Crossing) (start : String) (types : List String)
    (res : Resolution) : Prop where
  nodup_types : types.Nodup
  mem_types : ∀ t, t ∈ types ↔ Reaches crossings start t
  nodup_relations : res.relations.Nodup
  mem_relations : ∀ x, x ∈ res.relations ↔
    ∃ t, Reaches crossings start t ∧ ∃ c ∈ crossings t, c.relation = x
  nodup_sites : res.sites.Nodup
  mem_sites : ∀ s, s ∈ res.sites ↔
    ∃ t, Reaches crossings start t ∧ ∃ c ∈ crossings t, c.site = s

namespace Closes

variable {crossings crossings' : String → List Crossing} {start : String} {types types' : List String}
  {res res' : Resolution}

/-- Only which crossings the reachable types have matters, not their order. -/
theorem congr (h : Closes crossings start types res)
    (hsame : ∀ t ∈ types, ∀ c, c ∈ crossings t ↔ c ∈ crossings' t) :
    Closes crossings' start types res := by
  have hreach : ∀ t, Reaches crossings start t ↔ Reaches crossings' start t := by
    intro t
    constructor
    · intro ht
      exact ht.mono (fun u c hu hc => (hsame u ((h.mem_types u).2 hu) c).1 hc)
    · intro ht
      induction ht with
      | refl => exact .refl
      | step _ hc ih => exact ih.step ((hsame _ ((h.mem_types _).2 ih) _).2 hc)
  have hunion : ∀ (p : Crossing → Prop),
      (∃ t, Reaches crossings start t ∧ ∃ c ∈ crossings t, p c) ↔
        ∃ t, Reaches crossings' start t ∧ ∃ c ∈ crossings' t, p c := by
    intro p
    refine exists_congr (fun t => ?_)
    rw [← hreach t]
    refine and_congr_right (fun ht => exists_congr (fun c => ?_))
    rw [hsame t ((h.mem_types t).2 ht) c]
  exact {
    nodup_types := h.nodup_types
    mem_types := fun t => (h.mem_types t).trans (hreach t)
    nodup_relations := h.nodup_relations
    mem_relations := fun x => (h.mem_relations x).trans (hunion _)
    nodup_sites := h.nodup_sites
    mem_sites := fun s => (h.mem_sites s).trans (hunion _) }

/-- The same crossings in any order, followed in any order, give the same relations and sites. -/
theorem mem_iff_mem (h : Closes crossings start types res) (h' : Closes crossings' start types' res')
    (hsame : ∀ t c, c ∈ crossings t ↔ c ∈ crossings' t) :
    (∀ x, x ∈ res.relations ↔ x ∈ res'.relations) ∧ ∀ s, s ∈ res.sites ↔ s ∈ res'.sites := by
  have h₁ := h.congr (fun t _ => hsame t)
  exact ⟨fun x => (h₁.mem_relations x).trans (h'.mem_relations x).symm,
    fun s => (h₁.mem_sites s).trans (h'.mem_sites s).symm⟩

end Closes

/-! ### Taking up crossings -/

theorem mem_relations_addAll (cs : List Crossing) : ∀ (res : Resolution) (x : MappingRelation),
    x ∈ (res.addAll cs).relations ↔ x ∈ res.relations ∨ ∃ c ∈ cs, c.relation = x := by
  induction cs with
  | nil => simp [addAll]
  | cons c cs ih =>
    intro res x
    have hstep : x ∈ (res.add c).relations ↔ x ∈ res.relations ∨ c.relation = x :=
      mem_addNew.trans (or_congr_right eq_comm)
    rw [show res.addAll (c :: cs) = (res.add c).addAll cs from rfl, ih, hstep, or_assoc]
    simp

theorem mem_sites_addAll (cs : List Crossing) : ∀ (res : Resolution) (s : MappingSite),
    s ∈ (res.addAll cs).sites ↔ s ∈ res.sites ∨ ∃ c ∈ cs, c.site = s := by
  induction cs with
  | nil => simp [addAll]
  | cons c cs ih =>
    intro res s
    have hstep : s ∈ (res.add c).sites ↔ s ∈ res.sites ∨ c.site = s :=
      mem_addNew.trans (or_congr_right eq_comm)
    rw [show res.addAll (c :: cs) = (res.add c).addAll cs from rfl, ih, hstep, or_assoc]
    simp

theorem nodup_addAll (cs : List Crossing) : ∀ res : Resolution, res.relations.Nodup →
    res.sites.Nodup → (res.addAll cs).relations.Nodup ∧ (res.addAll cs).sites.Nodup := by
  induction cs with
  | nil => exact fun res hrel hsites => ⟨hrel, hsites⟩
  | cons c cs ih =>
    exact fun res hrel hsites => ih (res.add c) (nodup_addNew hrel _) (nodup_addNew hsites _)

/-! ### Visits -/

/-- A type whose crossings have been searched, and how the search has ended. -/
structure Visit where
  type : String
  answer : Except Failure (List Crossing)

namespace Visit

/-- The crossings found; none if the search has failed. -/
def found (v : Visit) : List Crossing := v.answer.toOption.getD []

/-- The crossings of a type as far as visits have found them. -/
def crossings (visits : List Visit) (type : String) : List Crossing :=
  (visits.filter (fun v => v.type = type)).flatMap found

theorem mem_crossings {visits : List Visit} {type : String} {c : Crossing} :
    c ∈ crossings visits type ↔ ∃ v ∈ visits, v.type = type ∧ c ∈ v.found := by
  simp [crossings, and_assoc]

theorem mem_crossings_of_mem {visits : List Visit} {v : Visit} (h : v ∈ visits) {c : Crossing}
    (hc : c ∈ v.found) : c ∈ crossings visits v.type :=
  mem_crossings.2 ⟨v, h, rfl, hc⟩

end Visit

/-- The ways in which the search gets from one run to another: it polls the token, and it counts and
visits a type, unless that is cancelled. The visits are listed last first. -/
inductive Visits (a : IndexAccess) (field : String) (start : Run) : List Visit → Run → Prop where
  | start : Visits a field start [] start
  | poll {visits : List Visit} {r : Run} (h : Visits a field start visits r) :
    Visits a field start visits { r with token := r.token.poll }
  | visit {visits : List Visit} {v : Visit} {r r' : Run} (h : Visits a field start visits r)
    (hrun : (Crossings.of a v.type field none).runOn (r.count "resolver_types" 1) = (v.answer, r'))
    (hanswer : ∀ e, v.answer = .error e → e.isCancellation = false) :
    Visits a field start (v :: visits) r'

namespace Visits

variable {a : IndexAccess} {field : String} {start r : Run} {visits : List Visit}

/-- What polls and visits keep holds all along, and what each visit establishes holds of all. -/
theorem forall_mem {I : Run → Prop} {P : Visit → Prop}
    (hpoll : ∀ r, I r → I { r with token := r.token.poll })
    (hvisit : ∀ v r r', I r →
      (Crossings.of a v.type field none).runOn (r.count "resolver_types" 1) = (v.answer, r') →
      (∀ e, v.answer = .error e → e.isCancellation = false) → I r' ∧ P v)
    (hstart : I start) (h : Visits a field start visits r) : I r ∧ ∀ v ∈ visits, P v := by
  induction h with
  | start => exact ⟨hstart, by simp⟩
  | poll _ ih => exact ⟨hpoll _ ih.1, ih.2⟩
  | visit _ hrun hanswer ih =>
    obtain ⟨hr, hv⟩ := hvisit _ _ _ ih.1 hrun hanswer
    exact ⟨hr, List.forall_mem_cons.2 ⟨hv, ih.2⟩⟩

/-- Each visit counts once. -/
theorem counter (h : Visits a field start visits r) :
    r.counter "resolver_types" = start.counter "resolver_types" + visits.length := by
  induction h with
  | start => exact (Int.add_zero _).symm
  | poll _ ih => exact ih
  | @visit visits v r r' _ hrun _ ih =>
    have hcounters := (runOn_crossings_frame a v.type field none (r.count "resolver_types" 1)).2
    rw [hrun] at hcounters
    have hcount : r'.counter "resolver_types" = r.counter "resolver_types" + 1 := by
      rw [Run.counter, hcounters]
      exact Run.counter_count r "resolver_types" 1
    rw [hcount, ih, List.length_cons]
    omega

/-- The crossings found lead to types of the index. -/
theorem nextType_mem (h : Visits a field start visits r) (hstart : start.Within a.index) :
    ∀ v ∈ visits, ∀ c ∈ v.found, c.nextType ∈ a.index.nextTypes := by
  refine (forall_mem (I := fun r => r.Within a.index) (fun r hr => hr) ?_ hstart h).2
  intro v r r' hr hrun _
  obtain ⟨hr', hfound⟩ := Crossings.finds_of v.type field none _ _ _ (by exact hr) hrun
  refine ⟨hr', ?_⟩
  unfold Visit.found
  cases hanswer : v.answer with
  | error e => simp [Except.toOption]
  | ok found => exact hfound found hanswer

/-- Whatever the index fails at, the crossings found are those of the index. -/
theorem eq_faultless (h : Visits a field start visits r) (hstart : start.Sound a.faultless) :
    ∀ v ∈ visits, ∀ found, v.answer = .ok found →
      (Crossings.of a.faultless v.type field none).outcome start.settings = .ok found := by
  refine (forall_mem (I := fun r => r.settings = start.settings ∧ r.Sound a.faultless)
    (fun r hr => hr) ?_ ⟨rfl, hstart⟩ h).2
  intro v r r' hr hrun _
  obtain ⟨hs, hsound, hout⟩ := a.faultless_refines_crossings start.settings v.type field none
    _ _ _ hrun hr.1 hr.2
  refine ⟨⟨hs, hsound⟩, fun found hanswer => ?_⟩
  rcases hout with hout | ⟨e, he, -⟩
  · rw [← hout, hanswer]
  · rw [hanswer] at he
    cases he

/-- Over a steady index each visit ends as on a fresh run. -/
theorem eq_outcome (h : Visits a field start visits r) (ha : a.Steady) (hstart : start.Sound a) :
    ∀ v ∈ visits, v.answer = (Crossings.of a v.type field none).outcome start.settings := by
  refine (forall_mem (I := fun r => r.settings = start.settings ∧ r.Sound a)
    (fun r hr => hr) ?_ ⟨rfl, hstart⟩ h).2
  intro v r r' hr hrun hanswer
  obtain ⟨hout, hkept⟩ := (ha.reproduces_crossings v.type field none).eq_outcome hrun hr.1 hr.2
    hanswer
  exact ⟨hkept, hout⟩

/-- Over a steady index the visits find the expected crossings. -/
theorem mem_crossings_iff (h : Visits a field start visits r) (ha : a.Steady)
    (hstart : start.Sound a) {type : String} (htype : type ∈ visits.map Visit.type) {c : Crossing} :
    c ∈ Visit.crossings visits type ↔ c ∈ Crossings.expected a start.settings field type := by
  have hfound : ∀ v ∈ visits, v.found = Crossings.expected a start.settings field v.type := by
    intro v hv
    rw [Visit.found, h.eq_outcome ha hstart v hv, Crossings.expected]
  rw [Visit.mem_crossings]
  constructor
  · rintro ⟨v, hv, rfl, hc⟩
    rwa [← hfound v hv]
  · intro hc
    obtain ⟨v, hv, rfl⟩ := List.mem_map.1 htype
    exact ⟨v, hv, rfl, by rwa [hfound v hv]⟩

end Visits

/-! ### The search between two visits -/

/-- What is known to be reachable has been visited or is in the queue, and all of it is among some
given types. No type is visited twice. -/
structure Partial (pool : List String) (start : String) (visits : List Visit)
    (queue : List String) (res : Resolution) : Prop where
  nodup_types : (visits.map Visit.type).Nodup
  start_mem : start ∈ visits.map Visit.type ∨ start ∈ queue
  next_mem : ∀ v ∈ visits, ∀ c ∈ v.found, c.nextType ∈ visits.map Visit.type ∨ c.nextType ∈ queue
  reached : ∀ t, t ∈ visits.map Visit.type ∨ t ∈ queue → Reaches (Visit.crossings visits) start t
  mem_pool : ∀ t, t ∈ visits.map Visit.type ∨ t ∈ queue → t ∈ pool
  nodup_relations : res.relations.Nodup
  mem_relations : ∀ x, x ∈ res.relations ↔ ∃ v ∈ visits, ∃ c ∈ v.found, c.relation = x
  nodup_sites : res.sites.Nodup
  mem_sites : ∀ s, s ∈ res.sites ↔ ∃ v ∈ visits, ∃ c ∈ v.found, c.site = s

/-- The types visited and queued after a visit: those before, and those that the crossings found
lead to. -/
theorem mem_visit_iff {visited skipped rest : List String} {type t : String} {found : List Crossing}
    (hskipped : ∀ t ∈ skipped, t ∈ visited) :
    (t ∈ type :: visited ∨
      t ∈ rest ++ (found.map Crossing.nextType).filter (fun n => !(type :: visited).contains n)) ↔
      (t ∈ visited ∨ t ∈ skipped ++ type :: rest) ∨ ∃ c ∈ found, c.nextType = t := by
  have hcontains : (!(type :: visited).contains t) = true ↔ t ∉ type :: visited := by simp
  simp only [List.mem_append, List.mem_filter, List.mem_map, hcontains]
  grind

namespace Partial

variable {pool : List String} {start : String} {visits : List Visit} {queue : List String}
  {res : Resolution}

theorem init {start : String} (h : start ∈ pool) : Partial pool start [] [start] {} where
  nodup_types := .nil
  start_mem := by simp
  next_mem := by simp
  reached t ht := by
    rcases ht with ht | ht
    · simp at ht
    · rw [List.mem_singleton.1 ht]
      exact .refl
  mem_pool := by simpa using h
  nodup_relations := .nil
  mem_relations := by simp
  nodup_sites := .nil
  mem_sites := by simp

/-- The crossings found are those of the reachable types, as far as they have been visited. -/
theorem exists_found_iff (h : Partial pool start visits queue res) (p : Crossing → Prop) :
    (∃ v ∈ visits, ∃ c ∈ v.found, p c) ↔
      ∃ t, Reaches (Visit.crossings visits) start t ∧ ∃ c ∈ Visit.crossings visits t, p c := by
  constructor
  · rintro ⟨v, hv, c, hc, hp⟩
    have hreached := h.reached v.type (.inl (List.mem_map_of_mem hv))
    exact ⟨v.type, hreached, c, Visit.mem_crossings_of_mem hv hc, hp⟩
  · rintro ⟨t, -, c, hc, hp⟩
    obtain ⟨v, hv, -, hc⟩ := Visit.mem_crossings.1 hc
    exact ⟨v, hv, c, hc, hp⟩

/-- When all types of the queue have been visited the search is over. -/
theorem closes (h : Partial pool start visits queue res)
    (hqueue : ∀ t ∈ queue, t ∈ visits.map Visit.type) :
    Closes (Visit.crossings visits) start (visits.map Visit.type) res where
  nodup_types := h.nodup_types
  mem_types t := by
    constructor
    · exact fun ht => h.reached t (.inl ht)
    · intro ht
      induction ht with
      | refl => exact h.start_mem.elim id (hqueue _)
      | step _ hc _ =>
        obtain ⟨v, hv, -, hc⟩ := Visit.mem_crossings.1 hc
        exact (h.next_mem v hv _ hc).elim id (hqueue _)
  nodup_relations := h.nodup_relations
  mem_relations x := (h.mem_relations x).trans (h.exists_found_iff _)
  nodup_sites := h.nodup_sites
  mem_sites s := (h.mem_sites s).trans (h.exists_found_iff _)

/-- The next type that has not been visited is visited. -/
theorem visit {v : Visit} {skipped rest : List String}
    (h : Partial pool start visits (skipped ++ v.type :: rest) res)
    (hskipped : ∀ t ∈ skipped, t ∈ visits.map Visit.type) (hnew : v.type ∉ visits.map Visit.type)
    (hfound : ∀ c ∈ v.found, c.nextType ∈ pool) :
    Partial pool start (v :: visits)
      (rest ++ (v.found.map Crossing.nextType).filter
        (fun n => !(v.type :: visits.map Visit.type).contains n))
      (res.addAll v.found) := by
  have hreach : ∀ {t}, Reaches (Visit.crossings visits) start t →
      Reaches (Visit.crossings (v :: visits)) start t := by
    intro t ht
    refine ht.mono (fun u c _ hc => ?_)
    obtain ⟨w, hw, hu, hc⟩ := Visit.mem_crossings.1 hc
    exact Visit.mem_crossings.2 ⟨w, List.mem_cons_of_mem _ hw, hu, hc⟩
  have hnodup := nodup_addAll v.found res h.nodup_relations h.nodup_sites
  exact {
    nodup_types := List.nodup_cons.2 ⟨hnew, h.nodup_types⟩
    start_mem := (mem_visit_iff hskipped).2 (.inl h.start_mem)
    next_mem := by
      intro w hw c hc
      refine (mem_visit_iff hskipped).2 ?_
      rcases List.mem_cons.1 hw with rfl | hw
      · exact .inr ⟨c, hc, rfl⟩
      · exact .inl (h.next_mem w hw c hc)
    reached := by
      intro t ht
      rcases (mem_visit_iff hskipped).1 ht with ht | ⟨c, hc, rfl⟩
      · exact hreach (h.reached t ht)
      · have hv := hreach (h.reached v.type (.inr (by simp)))
        exact hv.step (Visit.mem_crossings_of_mem List.mem_cons_self hc)
    mem_pool := by
      intro t ht
      rcases (mem_visit_iff hskipped).1 ht with ht | ⟨c, hc, rfl⟩
      · exact h.mem_pool t ht
      · exact hfound c hc
    nodup_relations := hnodup.1
    mem_relations := fun x => by
      simp only [mem_relations_addAll, h.mem_relations, List.mem_cons, exists_eq_or_imp]
      exact or_comm
    nodup_sites := hnodup.2
    mem_sites := fun s => by
      simp only [mem_sites_addAll, h.mem_sites, List.mem_cons, exists_eq_or_imp]
      exact or_comm }

/-- The pool bounds the number of visits. -/
theorem length_visits_le (h : Partial pool start visits queue res) : visits.length ≤ pool.length := by
  have hle := h.nodup_types.length_le_of_subset (fun t ht => h.mem_pool t (.inl ht))
  rwa [List.length_map] at hle

end Partial

/-! ### Running the search -/

/-- What taking the next type off a queue gives. -/
def Taken (visited queue : List String) : Option (String × List String) → Prop
  | none => ∀ t ∈ queue, t ∈ visited
  | some (type, rest) => type ∉ visited ∧
    ∃ skipped, queue = skipped ++ type :: rest ∧ ∀ t ∈ skipped, t ∈ visited

variable {a : IndexAccess} {field : String} {start : Run} {visits : List Visit}

theorem yields_nextType (visited queue : List String) :
    ∀ r, Visits a field start visits r →
      Analysis.Yields r (nextType visited queue) (fun next r' =>
        Visits a field start visits r' ∧ Taken visited queue next) := by
  induction queue with
  | nil =>
    intro r hr
    exact .pure ⟨hr, by simp [Taken]⟩
  | cons t queue ih =>
    intro r hr
    refine .bind (P := fun _ r' => Visits a field start visits r') (.checkpoint hr.poll) ?_
    intro _ r₁ hr₁
    split
    next ht =>
      have ht' : t ∈ visited := by simpa using ht
      refine (ih r₁ hr₁).mono (fun next r₂ h => ⟨h.1, ?_⟩)
      cases next with
      | none => exact List.forall_mem_cons.2 ⟨ht', h.2⟩
      | some next =>
        obtain ⟨htype, skipped, rfl, hskipped⟩ := h.2
        exact ⟨htype, t :: skipped, rfl, List.forall_mem_cons.2 ⟨ht', hskipped⟩⟩
    next ht => exact .pure ⟨hr₁, by simpa using ht, [], rfl, by simp⟩

theorem yields_visit {r : Run} (hr : Visits a field start visits r) (type : String) :
    Analysis.Yields (r.count "resolver_types" 1)
      (Analysis.attempt (Crossings.of a type field none)) (fun answer r' =>
        ∃ v : Visit, v.type = type ∧ v.answer.toOption = answer ∧
          Visits a field start (v :: visits) r') := by
  intro answer r' hrun
  obtain ⟨res, hx, rfl, hres⟩ := Analysis.runOn_attempt_eq_ok _ hrun
  exact ⟨⟨type, res⟩, rfl, rfl, hr.visit hx hres⟩

/-- From a partial result, and with room for all types that can come up, the search ends with all
that can be reached. -/
theorem yields_expand (hstart : start.Within a.index) (type : String) (bound : Nat) :
    ∀ visits queue res r,
      Partial (type :: a.index.nextTypes) type visits queue res →
      Visits a field start visits r →
      a.index.nextTypes.length + 1 < visits.length + bound →
      Analysis.Yields r (expand a field bound (visits.map Visit.type) queue res) (fun res' r' =>
        ∃ visits', Visits a field start visits' r' ∧
          Closes (Visit.crossings visits') type (visits'.map Visit.type) res') := by
  induction bound with
  | zero =>
    intro visits queue res r hp _ hroom
    have hle := hp.length_visits_le
    rw [List.length_cons] at hle
    omega
  | succ bound ih =>
    intro visits queue res r hp hr hroom
    refine .bind (yields_nextType (visits.map Visit.type) queue r hr) ?_
    rintro next r₁ ⟨hr₁, hnext⟩
    cases next with
    | none => exact .pure ⟨visits, hr₁, hp.closes hnext⟩
    | some next =>
      obtain ⟨next, rest⟩ := next
      obtain ⟨hnew, skipped, rfl, hskipped⟩ := hnext
      refine .bind (P := fun _ r' => r' = r₁.count "resolver_types" 1) (.count rfl) ?_
      rintro _ _ rfl
      refine .bind (yields_visit hr₁ next) ?_
      rintro answer r₂ ⟨v, rfl, rfl, hr₂⟩
      have hvisit := hp.visit hskipped hnew (fun c hc => List.mem_cons_of_mem _
        (hr₂.nextType_mem hstart v List.mem_cons_self c hc))
      have hrest := ih _ _ _ r₂ hvisit hr₂ (by rw [List.length_cons]; omega)
      -- a failed visit adds nothing to the queue and the result
      cases hanswer : v.answer with
      | error e => simpa [Visit.found, hanswer, Except.toOption, addAll] using hrest
      | ok found => simpa [Visit.found, hanswer, Except.toOption] using hrest

/-! ### Failures -/

theorem nextType_onlyCancels (visited queue : List String) :
    (nextType visited queue).OnlyCancels := by
  induction queue with
  | nil => exact .pure _
  | cons t queue ih =>
    refine .bind .checkpoint (fun _ => ?_)
    split
    · exact ih
    · exact .pure _

/-- The failure of a type's crossings ends the branch alone. -/
theorem expand_onlyCancels (bound : Nat) :
    ∀ visited queue res, (expand a field bound visited queue res).OnlyCancels := by
  induction bound with
  | zero => exact fun _ _ _ => .pure _
  | succ bound ih =>
    intro visited queue res
    refine .bind (nextType_onlyCancels visited queue) (fun next => ?_)
    cases next with
    | none => exact .pure _
    | some next =>
      refine .bind (.count _ _) (fun _ => .bind (.attempt _) (fun answer => ?_))
      cases answer with
      | none => exact ih _ _ _
      | some found => exact ih _ _ _

end Resolution

/-! ### Simulations of the search -/

namespace Simulation

variable {a : IndexAccess} {plan : FaultPlan} (S : Simulation a plan)

theorem nextType (visited queue : List String) :
    S.Sim Eq (Resolution.nextType visited queue) (Resolution.nextType visited queue) := by
  induction queue with
  | nil => exact .pure rfl
  | cons t queue ih =>
    refine S.checkpoint.bindEq (fun _ => ?_)
    split
    · exact ih
    · exact .pure rfl

variable (hS : S.Strict)
  (hcount : ∀ name amount, S.Sim Eq (Analysis.count name amount) (Analysis.count name amount))

include hS hcount

theorem expand (field : String) (bound : Nat) :
    ∀ visited queue res, S.Sim Eq (Resolution.expand a field bound visited queue res)
      (Resolution.expand (a.withFaults plan) field bound visited queue res) := by
  induction bound with
  | zero => exact fun _ _ _ => .pure rfl
  | succ bound ih =>
    intro visited queue res
    refine (S.nextType visited queue).bindEq (fun next => ?_)
    cases next with
    | none => exact .pure rfl
    | some next =>
      refine (hcount _ _).bindEq (fun _ => ?_)
      refine (Link.Sim.attempt hS (S.crossings next.1 field none)).bindEq (fun answer => ?_)
      cases answer with
      | none => exact ih _ _ _
      | some found => exact ih _ _ _

theorem resolveRelations (seed : FieldRef) :
    S.Sim Eq (resolveRelations a seed) (FieldTrace.resolveRelations (a.withFaults plan) seed) := by
  refine (S.ask _ _).bindEq (fun resolved => ?_)
  cases resolved with
  | none => exact .pure rfl
  | some type =>
    refine (S.ask _ _).bindEq (fun found => ?_)
    cases found with
    | none => exact .pure rfl
    | some field => exact S.expand hS hcount _ _ _ _ _

end Simulation

/-- If nobody cancels, resolving relations is not cancelled. -/
theorem resolveRelations_uncancelled {a : IndexAccess} (h : a.Calm) {r : Run} (hr : r.token.Quiet)
    (seed : FieldRef) : (resolveRelations a seed).Uncancelled r :=
  Link.Sim.uncancelled ((Simulation.keeping h.stable).resolveRelations (fun _ _ he => he.elim)
    (by rintro _ _ r _ ⟨rfl, hr⟩; exact .ok rfl ⟨rfl, hr⟩) seed) hr

/-! ### The closure -/

theorem runOn_resolveRelations {a : IndexAccess} {r : Run} {seed : FieldRef} {type : String}
    {field : FieldDecl} (h : SeedFound a r seed type field) :
    (resolveRelations a seed).runOn r =
      (Resolution.expand a seed.name a.index.typeBound [] [type] {}).runOn
        { r with indexCalls := r.indexCalls + 1 + 1 } := by
  unfold resolveRelations
  rw [Analysis.runOn_bind_ok _ (by rw [IndexAccess.resolveType, Analysis.runOn_ask,
    h.resolve_answers]), h.resolves]
  simp only
  rw [Analysis.runOn_bind_ok _ (by rw [IndexAccess.fieldOn, Analysis.runOn_ask,
    h.field_answers]), h.holds]

/-- From any run on which the seed is found, resolving relations that is not cancelled ends, after a
visit to each type that can be reached, with the relations and sites of all crossings found, where a
visit that fails finds none. What a visit finds are the crossings that the index has. If questions
fail or succeed regardless of when they are put, which visits fail is known beforehand. Each type that
can be reached counts once. The same crossings in another order give the same relations and sites. -/
theorem resolveRelations_closes {a : IndexAccess} {r : Run} {seed : FieldRef} {type : String}
    {field : FieldDecl} (h : SeedFound a r seed type field)
    (hcancel : (resolveRelations a seed).Uncancelled r) (hwithin : r.Within a.index) :
    ∃ res r' visits,
      (resolveRelations a seed).runOn r = (.ok res, r') ∧
      Resolution.Visits a seed.name { r with indexCalls := r.indexCalls + 1 + 1 } visits r' ∧
      Resolution.Closes (Resolution.Visit.crossings visits) type
        (visits.map Resolution.Visit.type) res ∧
      (r.Sound a.faultless → ∀ v ∈ visits, ∀ found, v.answer = .ok found →
        (Crossings.of a.faultless v.type seed.name none).outcome r.settings = .ok found) ∧
      (a.Steady → r.Sound a →
        Resolution.Closes (Crossings.expected a r.settings seed.name) type
          (visits.map Resolution.Visit.type) res) ∧
      r'.counter "resolver_types" = r.counter "resolver_types" + visits.length ∧
      ∀ crossings' types' res',
        (∀ t c, c ∈ Resolution.Visit.crossings visits t ↔ c ∈ crossings' t) →
        Resolution.Closes crossings' type types' res' →
        (∀ x, x ∈ res.relations ↔ x ∈ res'.relations) ∧ ∀ s, s ∈ res.sites ↔ s ∈ res'.sites := by
  have hrun := runOn_resolveRelations h
  have hroom := a.index.length_nextTypes
  rcases hexpand : (Resolution.expand a seed.name a.index.typeBound [] [type] {}).runOn
    { r with indexCalls := r.indexCalls + 1 + 1 } with ⟨e | res, r'⟩
  · rw [hexpand] at hrun
    have hnot := Resolution.expand_onlyCancels _ _ _ _ _ _ _ hexpand
    rw [hcancel _ _ hrun] at hnot
    cases hnot
  · rw [hexpand] at hrun
    obtain ⟨visits, hvisits, hcloses⟩ :=
      Resolution.yields_expand (by exact hwithin) type a.index.typeBound [] [type] {} _
        (.init (by simp)) .start (by rw [List.length_nil]; omega) res r' hexpand
    refine ⟨res, r', visits, hrun, hvisits, hcloses, fun hsound => hvisits.eq_faultless hsound,
      fun hsteady hsound => hcloses.congr (fun t ht c => ?_), hvisits.counter,
      fun _ _ _ hsame hcloses' => hcloses.mem_iff_mem hcloses' hsame⟩
    exact hvisits.mem_crossings_iff hsteady hsound ht

/-- One of the two types fails and contributes nothing. -/
theorem resolveRelations_closes_orders :
    ∃ (res : Resolution) (r' : Run) (visits : List Resolution.Visit),
      (resolveRelations Orders.access Orders.seed).runOn {} = (.ok res, r') ∧
      Resolution.Closes (Crossings.expected Orders.access {} "id") "Order"
        (visits.map Resolution.Visit.type) res ∧
      res.relations.length = 1 ∧ visits.length = 2 := by
  have hcancel := resolveRelations_uncancelled Orders.access_calm (r := {}) Token.quiet_default
    Orders.seed
  obtain ⟨res, r', visits, hrun, -, -, -, hsteady, hcounter, -⟩ :=
    resolveRelations_closes (Orders.seedFound {}) hcancel (Run.within_of_empty rfl)
  have hlengths : (((resolveRelations Orders.access Orders.seed).runOn {}).1.toOption.map
      (fun res => res.relations.length) = some 1) ∧
      ((resolveRelations Orders.access Orders.seed).runOn {}).2.counter "resolver_types" = 2 := by
    decide +kernel
  rw [hrun] at hlengths
  refine ⟨res, r', visits, hrun, hsteady (fun _ _ => rfl) (Run.sound_of_empty rfl),
    Option.some.inj hlengths.1, ?_⟩
  have htwo := hcounter.symm.trans hlengths.2
  simp only [Run.counter, Table.getD, Table.get?_empty, Option.getD_none] at htwo
  omega

end FieldTrace
