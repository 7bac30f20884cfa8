import FieldTrace.Proofs.Runs
import FieldTrace.Mapping.Resolution

/-! # The types that crossings lead to

Whatever the index fails at, a crossing leads to an argument type of some call or to the value type
of some declared field. There are fewer of them than `Index.typeBound`. The proof follows the search
for crossings; since answers are remembered, what a run remembers has to be of that kind too, and
stays so (`Run.Within`). -/

namespace FieldTrace

/-! ### Sites and types of an index -/

namespace Index

variable (idx : Index)

/-- The mapping sites of the calls. -/
def sites : List MappingSite := idx.calls.filterMap Detection.site?

/-- All declared fields. -/
def fieldDecls : List FieldDecl := idx.types.values.flatMap (fun d => d.fields.values)

/-- The types on the sides of the sites, and the value types of the fields. -/
def nextTypes : List String :=
  idx.sites.flatMap (fun s => [s.source, s.target]) ++ idx.fieldDecls.map Crossings.valueType

theorem length_sides (sites : List MappingSite) :
    (sites.flatMap (fun s => [s.source, s.target])).length = 2 * sites.length := by
  induction sites with
  | nil => rfl
  | cons s sites ih =>
    simp only [List.flatMap_cons, List.length_append, List.length_cons, List.length_nil, ih]
    omega

theorem length_fieldDecls (decls : List TypeDecl) :
    (decls.flatMap (fun d => d.fields.values)).length =
      total (decls.map (fun d => d.fields.size)) := by
  induction decls with
  | nil => rfl
  | cons d decls ih =>
    rw [List.flatMap_cons, List.length_append, ih, List.map_cons, total, Table.values,
      List.length_map, Table.size]

/-- There is room for all these types and the seed's. -/
theorem length_nextTypes : idx.nextTypes.length + 2 ≤ idx.typeBound := by
  have hsites : idx.sites.length ≤ idx.calls.length := List.length_filterMap_le _ _
  rw [nextTypes, List.length_append, length_sides, List.length_map, fieldDecls, length_fieldDecls,
    typeBound]
  omega

end Index

theorem Index.mem_fieldDecls_of_fieldOn {idx : Index} {type field : String} {f : FieldDecl}
    (h : idx.types.fieldOn type field = some f) : f ∈ idx.fieldDecls := by
  obtain ⟨d, hd, hf⟩ := List.exists_of_findSome?_eq_some h
  obtain ⟨name, -, hname⟩ := List.mem_filterMap.1 hd
  exact List.mem_flatMap.2 ⟨d, Table.mem_values_of_get? hname, Table.mem_values_of_get? hf⟩

/-! ### What is remembered -/

/-- Remembered sites are sites of the index, and remembered crossings lead to types of the index. -/
def CacheKey.Within (idx : Index) : (k : CacheKey) → k.Answer → Prop
  | .projectSites | .methodSites _ | .typeSites _ => fun sites => ∀ s ∈ sites, s ∈ idx.sites
  | .crossings _ _ _ => fun found => ∀ c ∈ found, c.nextType ∈ idx.nextTypes
  | .callers _ | .implementations _ | .references _ | .memberCalls _ _ => fun _ => True

/-- The run remembers nothing about sites that the index does not have. -/
def Run.Within (idx : Index) (r : Run) : Prop :=
  ∀ k v, r.cache.find? k = some v → k.Within idx v

theorem Run.within_of_empty {idx : Index} {r : Run} (h : r.cache.entries = []) : r.Within idx := by
  intro k v hv
  rw [Cache.find?, h] at hv
  simp [Cache.findIn] at hv

theorem Run.Within.store {idx : Index} {r : Run} (h : r.Within idx) {k : CacheKey} {v : k.Answer}
    (hv : k.Within idx v) : Run.Within idx { r with cache := r.cache.store k v } := by
  intro k' v' hfind
  by_cases hk : k = k'
  · subst hk
    rw [Cache.find?_store_self, Option.some.injEq] at hfind
    exact hfind ▸ hv
  · rw [Cache.find?_store_of_ne _ hk] at hfind
    exact h k' v' hfind

/-! ### Searches that stay within the index -/

/-- From a run within the index the analysis gives only answers that satisfy `P`; whether it gives
one or fails, it leaves a run within the index. -/
def Analysis.Finds {α : Type} (idx : Index) (x : Analysis α) (P : α → Prop) : Prop :=
  ∀ r res r', r.Within idx → x.runOn r = (res, r') → r'.Within idx ∧ ∀ v, res = .ok v → P v

namespace Analysis.Finds

variable {α β : Type} {idx : Index} {x : Analysis α} {P : α → Prop}

protected theorem pure {v : α} (h : P v) : Finds idx (pure v) P := by
  rintro r _ _ hr ⟨⟩
  exact ⟨hr, by rintro _ ⟨⟩; exact h⟩

protected theorem bind {f : α → Analysis β} {R : β → Prop} (h : Finds idx x P)
    (hf : ∀ v, P v → Finds idx (f v) R) : Finds idx (x >>= f) R := by
  intro r res r' hr hrun
  rw [runOn_bind] at hrun
  rcases hx : runOn r x with ⟨e | v, r₁⟩
  · rw [hx] at hrun
    cases hrun
    exact ⟨(h r _ _ hr hx).1, nofun⟩
  · rw [hx] at hrun
    obtain ⟨hr₁, hv⟩ := h r _ _ hr hx
    exact hf v (hv v rfl) r₁ res r' hr₁ hrun

protected theorem checkpoint : Finds idx checkpoint (fun _ => True) := by
  intro r res r' hr hrun
  rw [runOn_checkpoint] at hrun
  cases hrun
  exact ⟨hr, fun _ _ => trivial⟩

/-- A question gives its answer, if any. -/
protected theorem ask (a : IndexAccess) (call : IndexCall) (answer : α) :
    Finds idx (a.ask call answer) (fun v => v = answer) := by
  intro r res r' hr hrun
  rw [runOn_ask] at hrun
  cases hrun
  refine ⟨hr, fun v hv => ?_⟩
  split at hv
  · cases hv
  · exact (Except.ok.inj hv).symm

protected theorem cached {k : CacheKey} {x : Analysis k.Answer}
    (h : Finds idx x (fun v => k.Within idx v)) :
    Finds idx (cached k x) (fun v => k.Within idx v) := by
  intro r res r' hr hrun
  cases hfind : r.cache.find? k with
  | some w =>
    rw [runOn_cached_hit r hfind] at hrun
    cases hrun
    exact ⟨hr, by rintro _ ⟨⟩; exact hr k w hfind⟩
  | none =>
    rw [runOn_cached_miss r hfind] at hrun
    rcases hx : runOn { r with cache := r.cache.recordMiss k } x with ⟨e | w, r₁⟩
    · rw [hx] at hrun
      cases hrun
      exact ⟨(h _ _ _ (by exact hr) hx).1, nofun⟩
    · rw [hx] at hrun
      cases hrun
      obtain ⟨hr₁, hw⟩ := h _ _ _ (by exact hr) hx
      exact ⟨hr₁.store (hw w rfl), by rintro _ ⟨⟩; exact hw w rfl⟩

end Analysis.Finds

/-! ### Sites -/

namespace Detection

variable {a : IndexAccess}

theorem mem_addSite {sites : List MappingSite} {site : Option MappingSite} {s : MappingSite} :
    s ∈ addSite sites site ↔ s ∈ sites ∨ site = some s := by
  cases site with
  | none => simp [addSite]
  | some t =>
    rw [addSite, mem_addNew, Option.some.injEq]
    exact or_congr_right eq_comm

theorem finds_sitesFrom (idx : Index) (calls : List CallSite) (hcalls : ∀ c ∈ calls, c ∈ idx.calls) :
    ∀ sites, (∀ s ∈ sites, s ∈ idx.sites) →
      (sitesFrom sites calls).Finds idx (fun found => ∀ s ∈ found, s ∈ idx.sites) := by
  induction calls with
  | nil => exact fun sites hsites => .pure hsites
  | cons c calls ih =>
    intro sites hsites
    refine .bind .checkpoint (fun _ _ => ih (fun d hd => hcalls d (by simp [hd])) _ ?_)
    intro s hs
    rcases mem_addSite.1 hs with hs | hc
    · exact hsites s hs
    · exact List.mem_filterMap.2 ⟨c, hcalls c (by simp), hc⟩

theorem finds_inProject :
    (inProject a).Finds a.index (fun sites => ∀ s ∈ sites, s ∈ a.index.sites) := by
  refine Analysis.Finds.cached (k := .projectSites) (.bind (.ask a _ _) (fun calls hcalls => ?_))
  refine finds_sitesFrom a.index calls (fun c hc => ?_) [] (by simp)
  rw [hcalls] at hc
  exact (List.mem_filter.1 hc).1

theorem finds_ofType (type : String) :
    (ofType a type).Finds a.index (fun sites => ∀ s ∈ sites, s ∈ a.index.sites) := by
  refine Analysis.Finds.cached (k := .typeSites type) (.bind finds_inProject (fun sites hsites => ?_))
  exact .pure (fun s hs => hsites s (List.mem_filter.1 hs).1)

theorem finds_inMethod (m : MethodId) :
    (inMethod a m).Finds a.index (fun sites => ∀ s ∈ sites, s ∈ a.index.sites) := by
  refine Analysis.Finds.cached (k := .methodSites m) (.bind (.ask a _ _) (fun calls hcalls => ?_))
  refine finds_sitesFrom a.index _ (fun c hc => ?_) [] (by simp)
  rw [hcalls] at hc
  exact Index.mem_calls_of_mem_callsIn (List.mem_filter.1 hc).1

end Detection

/-! ### Crossings -/

namespace Crossings

variable {a : IndexAccess}

theorem finds_sitesFor (type : String) (within : Option MethodId) :
    (sitesFor a type within).Finds a.index (fun sites => ∀ s ∈ sites, s ∈ a.index.sites) := by
  cases within with
  | none => exact Detection.finds_ofType type
  | some m =>
    refine (Detection.finds_inMethod m).bind (fun sites hsites => ?_)
    exact .pure (fun s hs => hsites s (List.mem_filter.1 hs).1)

/-- The other side of a site is one of its sides. -/
theorem mem_nextTypes_of_otherSide {idx : Index} {type other : String} {site : MappingSite}
    (hsite : site ∈ idx.sites) (h : otherSide type site = some other) : other ∈ idx.nextTypes := by
  have hcounterpart : site.counterpart type = some other := (Option.filter_eq_some_iff.1 h).1
  refine List.mem_append_left _ (List.mem_flatMap.2 ⟨site, hsite, ?_⟩)
  unfold MappingSite.counterpart at hcounterpart
  grind

theorem mem_nextTypes_of_fieldOn {idx : Index} {type field : String} {f : FieldDecl}
    (h : idx.types.fieldOn type field = some f) : valueType f ∈ idx.nextTypes :=
  List.mem_append_right _ (List.mem_map.2 ⟨f, Index.mem_fieldDecls_of_fieldOn h, rfl⟩)

theorem finds_directAt (type field : String) {site : MappingSite} (hsite : site ∈ a.index.sites) :
    (directAt a type field site).Finds a.index
      (fun c => ∀ x ∈ c.toList, x.nextType ∈ a.index.nextTypes) := by
  unfold directAt
  cases hother : otherSide type site with
  | none => exact .pure (by simp)
  | some other =>
    refine .bind (.ask a _ _) (fun found _ => ?_)
    cases found with
    | none => exact .pure (by simp)
    | some _ => exact .pure (by simpa using mem_nextTypes_of_otherSide hsite hother)

theorem finds_sharesFieldName (first second : String) :
    (sharesFieldName a first second).Finds a.index (fun _ => True) := by
  refine .bind (.ask a _ _) (fun names _ => ?_)
  dsimp only
  split
  · exact .pure trivial
  · exact .bind (.ask a _ _) (fun _ _ => .pure trivial)

theorem finds_nestedAt (type : String) (holder : FieldDecl) (site : MappingSite) :
    (nestedAt a type holder site).Finds a.index
      (fun c => ∀ x ∈ c.toList, x.nextType ∈ a.index.nextTypes) := by
  unfold nestedAt
  cases otherSide holder.declaringType site with
  | none => exact .pure (by simp)
  | some other =>
    refine .bind (.ask a _ _) (fun found hfound => ?_)
    cases found with
    | none => exact .pure (by simp)
    | some counterpart =>
      refine (finds_sharesFieldName type (valueType counterpart)).bind (fun shares _ => ?_)
      cases shares with
      | false => exact .pure (by simp)
      | true => exact .pure (by simpa using mem_nextTypes_of_fieldOn hfound.symm)

theorem finds_collect {α : Type} {step : α → Analysis (List Crossing)} {idx : Index} {xs : List α}
    (h : ∀ x ∈ xs, (step x).Finds idx (fun found => ∀ c ∈ found, c.nextType ∈ idx.nextTypes)) :
    (collect step xs).Finds idx (fun found => ∀ c ∈ found, c.nextType ∈ idx.nextTypes) := by
  induction xs with
  | nil => exact .pure (by simp)
  | cons x xs ih =>
    refine (h x (by simp)).bind (fun first hfirst => ?_)
    refine (ih (fun y hy => h y (by simp [hy]))).bind (fun rest hrest => ?_)
    exact .pure (List.forall_mem_append.2 ⟨hfirst, hrest⟩)

theorem finds_direct (type field : String) (within : Option MethodId) :
    (direct a type field within).Finds a.index
      (fun found => ∀ c ∈ found, c.nextType ∈ a.index.nextTypes) := by
  refine .bind (.ask a _ _) (fun declared _ => ?_)
  cases declared with
  | none => exact .pure (by simp)
  | some _ =>
    refine (finds_sitesFor type within).bind (fun sites hsites => finds_collect (fun s hs => ?_))
    exact (finds_directAt type field (hsites s hs)).bind (fun _ hc => .pure hc)

theorem finds_nested (type : String) (within : Option MethodId) :
    (nested a type within).Finds a.index
      (fun found => ∀ c ∈ found, c.nextType ∈ a.index.nextTypes) := by
  refine .bind (.ask a _ _) (fun holders _ => finds_collect (fun h _ => ?_))
  refine (finds_sitesFor h.declaringType within).bind (fun sites _ => finds_collect (fun s _ => ?_))
  exact (finds_nestedAt type h s).bind (fun _ hc => .pure hc)

/-- Crossings lead to types of the index. -/
theorem finds_of (type field : String) (within : Option MethodId) :
    (Crossings.of a type field within).Finds a.index
      (fun found => ∀ c ∈ found, c.nextType ∈ a.index.nextTypes) := by
  refine Analysis.Finds.cached (k := .crossings type field within) ?_
  refine (finds_direct type field within).bind (fun first hfirst => ?_)
  refine (finds_nested type within).bind (fun rest hrest => ?_)
  exact .pure (List.forall_mem_append.2 ⟨hfirst, hrest⟩)

end Crossings

end FieldTrace
