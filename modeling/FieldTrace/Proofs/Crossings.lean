import FieldTrace.Proofs.NextTypes
import FieldTrace.Proofs.Pruning

/-! # Crossings in terms of the index

Without faults and cancellation an analysis that only searches has one answer, whatever the run
remembers (`Analysis.Answers`). For the crossings of a field this answer is a list comprehension
over the mapping sites and the fields of the index (`Index.crossings`). -/

namespace FieldTrace

/-! ### Answers of searches -/

@[simp] theorem IndexAccess.faultless_index (a : IndexAccess) : a.faultless.index = a.index := rfl

/-- On runs that nobody cancels and that remember outcomes only, the analysis gives the answer. -/
def Analysis.Answers {α : Type} (a : IndexAccess) (s : Settings) (x : Analysis α) (v : α) : Prop :=
  ∀ r : Run, r.Settled a s → ∃ r', x.runOn r = (.ok v, r') ∧ r'.Settled a s

namespace Analysis.Answers

variable {α β : Type} {a : IndexAccess} {s : Settings} {x : Analysis α} {v : α}

protected theorem pure (v : α) : Answers a s (pure v) v := fun r hr => ⟨r, rfl, hr⟩

protected theorem bind {f : α → Analysis β} {w : β} (hx : Answers a s x v)
    (hf : Answers a s (f v) w) : Answers a s (x >>= f) w := by
  intro r hr
  obtain ⟨r₁, hrun, hr₁⟩ := hx r hr
  obtain ⟨r₂, hrun', hr₂⟩ := hf r₁ hr₁
  exact ⟨r₂, by rw [runOn_bind_ok r hrun, hrun'], hr₂⟩

protected theorem settings {f : Run → Analysis β} {w : β}
    (hf : ∀ r : Run, r.settings = s → Answers a s (f r) w) : Answers a s (get >>= f) w := by
  intro r hr
  rw [runOn_bind_ok r (runOn_get r)]
  exact hf r hr.settings r hr

protected theorem checkpoint : Answers a s checkpoint () := by
  intro r hr
  refine ⟨{ r with token := r.token.poll }, ?_, hr.settings, hr.sound, hr.quiet.poll⟩
  rw [runOn_checkpoint, hr.quiet.poll.isCancelled]
  rfl

protected theorem ask (call : IndexCall) (answer : α) :
    Answers a.faultless s (a.faultless.ask call answer) answer := fun r hr =>
  ⟨{ r with indexCalls := r.indexCalls + 1 }, by rw [runOn_ask]; rfl, hr.settings, hr.sound,
    hr.quiet⟩

theorem outcome_eq (h : Answers a s x v) : x.outcome s = .ok v := by
  obtain ⟨r', hrun, -⟩ := h _ (Run.settled_fresh a s)
  rw [outcome, hrun]

theorem determines (h : Answers a s x v) : a.Determines s x := by
  intro r hr
  rw [h.outcome_eq]
  exact h r hr

protected theorem cached {k : CacheKey} {v : k.Answer} (h : Answers a s (a.searchFor k) v) :
    Answers a s (cached k (a.searchFor k)) v := by
  intro r hr
  obtain ⟨r', hrun, hr'⟩ := h.determines.cached hr
  exact ⟨r', by rw [hrun, h.outcome_eq], hr'⟩

protected theorem attempt (h : Answers a s x v) : Answers a s (attempt x) (some v) := by
  intro r hr
  obtain ⟨r', hrun, hr'⟩ := h r hr
  exact ⟨r', by rw [runOn_attempt, hrun], hr'⟩

end Analysis.Answers

/-! ### The crossings of an index -/

namespace Index

variable (idx : Index)

/-- The mapping sites in the whole project or in one method, each once. -/
def sitesIn (within : Option MethodId) : List MappingSite :=
  let calls := match within with
    | none => idx.callsNamed Detection.transformNames
    | some m => (idx.callsIn m).filter (fun c => Detection.transformNames.contains c.name)
  distinct (calls.filterMap Detection.site?)

/-- The sites with a type on one side. -/
def sitesFor (type : String) (within : Option MethodId) : List MappingSite :=
  (idx.sitesIn within).filter (fun s => s.involves type)

/-- Have the two types a field name in common? -/
def sharesFieldName (first second : String) : Bool :=
  (idx.types.fieldsOf second true).any (fun f =>
    ((idx.types.fieldsOf first true).map FieldRef.name).contains f.name)

/-- The direct crossing of a field at a site. -/
def directAt (type field : String) (site : MappingSite) : Option Crossing :=
  (Crossings.otherSide type site).bind (fun other =>
    (idx.types.fieldOn other field).map (fun _ => {
      site := site, relation := Crossings.relate .direct site field, continueAt := ⟨other, field⟩,
      nextType := other }))

/-- The nested crossing of a type through one of its holders at a site. -/
def nestedAt (type : String) (holder : FieldDecl) (site : MappingSite) : Option Crossing :=
  (Crossings.otherSide holder.declaringType site).bind (fun other =>
    ((idx.types.fieldOn other holder.name).filter (fun counterpart =>
      idx.sharesFieldName type (Crossings.valueType counterpart))).map (fun counterpart => {
        site := site, relation := Crossings.relate .nested site holder.name,
        continueAt := ⟨other, holder.name⟩, nextType := Crossings.valueType counterpart }))

/-- The direct crossings of a field. -/
def directCrossings (type field : String) (within : Option MethodId) : List Crossing :=
  if (idx.types.fieldOn type field).isSome then
    (idx.sitesFor type within).filterMap (idx.directAt type field)
  else []

/-- The nested crossings of a type. -/
def nestedCrossings (type : String) (within : Option MethodId) : List Crossing :=
  (idx.types.containersOf type).flatMap (fun h =>
    (idx.sitesFor h.declaringType within).filterMap (idx.nestedAt type h))

/-- The crossings of a field, direct ones first. -/
def crossings (type field : String) (within : Option MethodId) : List Crossing :=
  idx.directCrossings type field within ++ idx.nestedCrossings type within

end Index

section searches

open Analysis (Answers)

variable {a : IndexAccess} {s : Settings}

theorem Detection.sitesFrom_answers (calls : List CallSite) (sites : List MappingSite) :
    Answers a s (sitesFrom (distinct sites) calls)
      (distinct (sites ++ calls.filterMap site?)) := by
  induction calls generalizing sites with
  | nil =>
    rw [List.filterMap_nil, List.append_nil]
    exact .pure _
  | cons c calls ih =>
    refine .bind .checkpoint ?_
    cases hsite : site? c with
    | none =>
      rw [List.filterMap_cons_none hsite]
      exact ih sites
    | some site =>
      rw [List.filterMap_cons_some hsite, List.append_cons]
      have hadd : addSite (distinct sites) (some site) = distinct (sites ++ [site]) :=
        (distinct_append_singleton sites site).symm
      rw [hadd]
      exact ih (sites ++ [site])

theorem Detection.inProject_answers :
    Answers a.faultless s (inProject a.faultless) (a.index.sitesIn none) :=
  .cached (k := .projectSites) (.bind (.ask _ _) (sitesFrom_answers _ []))

theorem Detection.ofType_answers (type : String) :
    Answers a.faultless s (ofType a.faultless type) (a.index.sitesFor type none) :=
  .cached (k := .typeSites type) (inProject_answers.bind (.pure _))

theorem Detection.inMethod_answers (m : MethodId) :
    Answers a.faultless s (inMethod a.faultless m) (a.index.sitesIn (some m)) :=
  .cached (k := .methodSites m) (.bind (.ask _ _) (sitesFrom_answers _ []))

namespace Crossings

theorem sitesFor_answers (type : String) (within : Option MethodId) :
    Answers a.faultless s (sitesFor a.faultless type within) (a.index.sitesFor type within) := by
  cases within with
  | none => exact Detection.ofType_answers type
  | some m => exact (Detection.inMethod_answers m).bind (.pure _)

theorem sharesFieldName_answers (first second : String) :
    Answers a.faultless s (sharesFieldName a.faultless first second)
      (a.index.sharesFieldName first second) := by
  refine .bind (.ask _ _) ?_
  dsimp only [IndexAccess.faultless_index]
  split
  next hempty =>
    have hnames : (a.index.types.fieldsOf first true).map FieldRef.name = [] := by
      simpa using hempty
    have hnone : a.index.sharesFieldName first second = false := by
      rw [Index.sharesFieldName, hnames]
      simp
    rw [hnone]
    exact .pure _
  next => exact .bind (.ask _ _) (.pure _)

theorem directAt_answers (type field : String) (site : MappingSite) :
    Answers a.faultless s (directAt a.faultless type field site)
      (a.index.directAt type field site) := by
  unfold directAt Index.directAt
  cases otherSide type site with
  | none => exact .pure _
  | some other =>
    refine .bind (.ask _ _) ?_
    dsimp only [IndexAccess.faultless_index, Option.bind_some]
    cases a.index.types.fieldOn other field <;> exact .pure _

theorem nestedAt_answers (type : String) (holder : FieldDecl) (site : MappingSite) :
    Answers a.faultless s (nestedAt a.faultless type holder site)
      (a.index.nestedAt type holder site) := by
  unfold nestedAt Index.nestedAt
  cases otherSide holder.declaringType site with
  | none => exact .pure _
  | some other =>
    refine .bind (.ask _ _) ?_
    dsimp only [IndexAccess.faultless_index, Option.bind_some]
    cases a.index.types.fieldOn other holder.name with
    | none => exact .pure _
    | some counterpart =>
      refine (sharesFieldName_answers type (valueType counterpart)).bind ?_
      rw [Option.filter_some]
      split <;> exact .pure _

theorem collect_answers {α : Type} {step : α → Analysis (List Crossing)} {found : α → List Crossing}
    (h : ∀ x, Answers a s (step x) (found x)) (xs : List α) :
    Answers a s (collect step xs) (xs.flatMap found) := by
  induction xs with
  | nil => exact .pure _
  | cons x xs ih => exact (h x).bind (ih.bind (.pure _))

theorem direct_answers (type field : String) (within : Option MethodId) :
    Answers a.faultless s (direct a.faultless type field within)
      (a.index.directCrossings type field within) := by
  unfold Index.directCrossings
  refine .bind (.ask _ _) ?_
  dsimp only [IndexAccess.faultless_index]
  cases a.index.types.fieldOn type field with
  | none => exact .pure _
  | some _ =>
    rw [Option.isSome_some, if_pos rfl, List.filterMap_eq_flatMap_toList]
    exact (sitesFor_answers type within).bind
      (collect_answers (fun site => (directAt_answers type field site).bind (.pure _)) _)

theorem nested_answers (type : String) (within : Option MethodId) :
    Answers a.faultless s (nested a.faultless type within)
      (a.index.nestedCrossings type within) := by
  unfold Index.nestedCrossings
  refine .bind (.ask _ _) (collect_answers (fun h => ?_) _)
  rw [List.filterMap_eq_flatMap_toList]
  exact (sitesFor_answers h.declaringType within).bind
    (collect_answers (fun site => (nestedAt_answers type h site).bind (.pure _)) _)

/-- Without faults the crossings of a field are those of the index. -/
theorem of_answers (type field : String) (within : Option MethodId) :
    Answers a.faultless s (Crossings.of a.faultless type field within)
      (a.index.crossings type field within) :=
  .cached (k := .crossings type field within) ((direct_answers type field within).bind
    ((nested_answers type within).bind (.pure _)))

end Crossings

end searches

/-! ### What a crossing rests on -/

/-- A site that maps a type to a different one has the two as its sides. -/
theorem Crossings.otherSide_eq_some {type other : String} {site : MappingSite}
    (h : otherSide type site = some other) :
    (type = site.source ∧ other = site.target ∨ type = site.target ∧ other = site.source) ∧
      type ≠ other := by
  obtain ⟨hcounterpart, hne⟩ := Option.filter_eq_some_iff.1 h
  refine ⟨?_, fun heq => by simp [heq] at hne⟩
  unfold MappingSite.counterpart at hcounterpart
  split at hcounterpart
  next hsource => exact .inl ⟨hsource, (Option.some.inj hcounterpart).symm⟩
  next =>
    split at hcounterpart
    next htarget => exact .inr ⟨htarget, (Option.some.inj hcounterpart).symm⟩
    next => cases hcounterpart

theorem Crossings.involves_of_otherSide {type other : String} {site : MappingSite}
    (h : otherSide type site = some other) : site.involves type = true := by
  obtain ⟨⟨rfl, -⟩ | ⟨rfl, -⟩, -⟩ := otherSide_eq_some h <;> simp [MappingSite.involves]

namespace Index

variable {idx : Index}

/-- How a field is carried across one of some sites: both sides hold it, or one side holds its type
in a field that the other side holds too. -/
inductive Carries (idx : Index) (type field : String) (sites : List MappingSite) :
    Crossing → Prop where
  | direct {site : MappingSite} {other : String} {here there : FieldDecl} (hsite : site ∈ sites)
    (hother : Crossings.otherSide type site = some other)
    (hhere : idx.types.fieldOn type field = some here)
    (hthere : idx.types.fieldOn other field = some there) :
    Carries idx type field sites {
      site := site, relation := Crossings.relate .direct site field, continueAt := ⟨other, field⟩,
      nextType := other }
  | nested {site : MappingSite} {other : String} {holder there : FieldDecl} (hsite : site ∈ sites)
    (hholder : holder ∈ idx.types.containersOf type)
    (hother : Crossings.otherSide holder.declaringType site = some other)
    (hthere : idx.types.fieldOn other holder.name = some there)
    (hshares : idx.sharesFieldName type (Crossings.valueType there) = true) :
    Carries idx type field sites {
      site := site, relation := Crossings.relate .nested site holder.name,
      continueAt := ⟨other, holder.name⟩, nextType := Crossings.valueType there }

theorem Carries.mono {type field : String} {sites sites' : List MappingSite} {c : Crossing}
    (h : idx.Carries type field sites c) (hsub : sites ⊆ sites') :
    idx.Carries type field sites' c := by
  cases h with
  | direct hsite hother hhere hthere => exact .direct (hsub hsite) hother hhere hthere
  | nested hsite hholder hother hthere hshares =>
    exact .nested (hsub hsite) hholder hother hthere hshares

theorem mem_directCrossings {type field : String} {within : Option MethodId} {c : Crossing} :
    c ∈ idx.directCrossings type field within ↔
      ∃ site ∈ idx.sitesIn within, (idx.types.fieldOn type field).isSome = true ∧
        idx.directAt type field site = some c := by
  unfold directCrossings sitesFor
  split
  next hsome =>
    simp only [hsome, true_and, List.mem_filterMap, List.mem_filter]
    constructor
    · rintro ⟨site, ⟨hsite, -⟩, hc⟩
      exact ⟨site, hsite, hc⟩
    · rintro ⟨site, hsite, hc⟩
      obtain ⟨other, hother, -⟩ := Option.bind_eq_some_iff.1 hc
      exact ⟨site, ⟨hsite, Crossings.involves_of_otherSide hother⟩, hc⟩
  next hnone => simp [hnone]

theorem mem_nestedCrossings {type : String} {within : Option MethodId} {c : Crossing} :
    c ∈ idx.nestedCrossings type within ↔
      ∃ holder ∈ idx.types.containersOf type, ∃ site ∈ idx.sitesIn within,
        idx.nestedAt type holder site = some c := by
  unfold nestedCrossings sitesFor
  simp only [List.mem_flatMap, List.mem_filterMap, List.mem_filter]
  refine exists_congr (fun holder => and_congr_right (fun _ => exists_congr (fun site => ?_)))
  constructor
  · rintro ⟨⟨hsite, -⟩, hc⟩
    exact ⟨hsite, hc⟩
  · rintro ⟨hsite, hc⟩
    obtain ⟨other, hother, -⟩ := Option.bind_eq_some_iff.1 hc
    exact ⟨⟨hsite, Crossings.involves_of_otherSide hother⟩, hc⟩

/-- The crossings of a field are the ways of carrying it across the sites. -/
theorem mem_crossings_iff {type field : String} {within : Option MethodId} {c : Crossing} :
    c ∈ idx.crossings type field within ↔ idx.Carries type field (idx.sitesIn within) c := by
  rw [crossings, List.mem_append, mem_directCrossings, mem_nestedCrossings]
  constructor
  · rintro (⟨site, hsite, hhere, hc⟩ | ⟨holder, hholder, site, hsite, hc⟩)
    · obtain ⟨here, hhere⟩ := Option.isSome_iff_exists.1 hhere
      obtain ⟨other, hother, hc⟩ := Option.bind_eq_some_iff.1 hc
      obtain ⟨there, hthere, rfl⟩ := Option.map_eq_some_iff.1 hc
      exact .direct hsite hother hhere hthere
    · obtain ⟨other, hother, hc⟩ := Option.bind_eq_some_iff.1 hc
      obtain ⟨there, hthere, rfl⟩ := Option.map_eq_some_iff.1 hc
      obtain ⟨hthere, hshares⟩ := Option.filter_eq_some_iff.1 hthere
      exact .nested hsite hholder hother hthere hshares
  · intro h
    cases h with
    | @direct site other here there hsite hother hhere hthere =>
      refine .inl ⟨site, hsite, by rw [hhere]; rfl, ?_⟩
      rw [directAt, hother, Option.bind_some, hthere]
      rfl
    | @nested site other holder there hsite hholder hother hthere hshares =>
      refine .inr ⟨holder, hholder, site, hsite, ?_⟩
      rw [nestedAt, hother, Option.bind_some, hthere, Option.filter_some, if_pos hshares]
      rfl

/-- Only transform calls can be sites, so that those of the project are all there are. -/
theorem mem_sitesIn_none {s : MappingSite} : s ∈ idx.sitesIn none ↔ s ∈ idx.sites := by
  rw [sitesIn, mem_distinct, sites, List.mem_filterMap, List.mem_filterMap]
  refine exists_congr (fun c => and_congr_left (fun hs => ?_))
  have hcall : Detection.isMappingCall c = true := by
    unfold Detection.site? at hs
    split at hs
    next h => exact h
    next => cases hs
  have hname : Detection.transformNames.contains c.name = true :=
    (Bool.and_eq_true_iff.1 hcall).1
  rw [callsNamed, List.mem_filter]
  exact and_iff_left hname

/-- The sites of a method are sites of the project. -/
theorem sitesIn_subset (m : MethodId) : idx.sitesIn (some m) ⊆ idx.sitesIn none := by
  intro s hs
  rw [sitesIn, mem_distinct, List.mem_filterMap] at hs
  obtain ⟨c, hc, hs⟩ := hs
  have hcall : c ∈ idx.calls := mem_calls_of_mem_callsIn (List.mem_filter.1 hc).1
  exact mem_sitesIn_none.2 (List.mem_filterMap.2 ⟨c, hcall, hs⟩)

/-- The crossings inside a method are crossings of the project. -/
theorem crossings_subset (type field : String) (within : Option MethodId) :
    idx.crossings type field within ⊆ idx.crossings type field none := by
  cases within with
  | none => exact fun _ hc => hc
  | some m =>
    exact fun c hc => mem_crossings_iff.2 ((mem_crossings_iff.1 hc).mono (sitesIn_subset m))

end Index

end FieldTrace
