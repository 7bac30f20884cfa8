import FieldTrace.Proofs.Recursion
import FieldTrace.Tracer

/-! # The two ways of searching for callers

The call graph lists the uses of a method grouped by caller, the recorded references list them in
the order in which they were found. Both are filled together, so that the callers come in the same
order of first occurrence and the places of each caller in the same order (`Index.InStep`). Call
trees show no more than that. -/

namespace FieldTrace

/-! ### Regrouping references -/

/-- References by caller. -/
def byCaller (callers : List MethodId) (places : MethodId → List Location) : List Reference :=
  callers.flatMap (fun m => (places m).map (fun l => ⟨some m, l⟩))

theorem callersIn_map {m : MethodId} {places : List Location} (h : places ≠ []) :
    callersIn (places.map (fun l => ⟨some m, l⟩)) = [m] := by
  induction places with
  | nil => exact absurd rfl h
  | cons l places ih =>
    by_cases hnil : places = []
    · subst hnil
      rfl
    · have hone : callersIn [⟨some m, l⟩] = [m] := rfl
      rw [List.map_cons, ← List.singleton_append, callersIn_append, ih hnil, hone]
      simp

theorem placesIn_map_self (m : MethodId) (places : List Location) :
    placesIn (places.map (fun l => ⟨some m, l⟩)) m = places := by
  induction places with
  | nil => rfl
  | cons l places ih => simpa [placesIn] using ih

theorem placesIn_map_of_ne {m n : MethodId} (h : m ≠ n) (places : List Location) :
    placesIn (places.map (fun l => ⟨some m, l⟩)) n = [] := by
  simp [placesIn, h]

theorem callersIn_byCaller {callers : List MethodId} {places : MethodId → List Location}
    (hcallers : callers.Nodup) (hplaces : ∀ m ∈ callers, places m ≠ []) :
    callersIn (byCaller callers places) = callers := by
  induction callers with
  | nil => rfl
  | cons m callers ih =>
    rw [List.nodup_cons] at hcallers
    have hrest := ih hcallers.2 (fun n hn => hplaces n (by simp [hn]))
    have hne : ∀ n ∈ callers, n ≠ m := fun n hn h => hcallers.1 (h ▸ hn)
    rw [byCaller, List.flatMap_cons, callersIn_append, callersIn_map (hplaces m (by simp)),
      ← byCaller, hrest, List.singleton_append, List.filter_eq_self.2 (by simpa using hne)]

theorem placesIn_byCaller_of_not_mem {callers : List MethodId} {m : MethodId}
    (places : MethodId → List Location) (h : m ∉ callers) :
    placesIn (byCaller callers places) m = [] := by
  induction callers with
  | nil => rfl
  | cons n callers ih =>
    rw [List.mem_cons, not_or] at h
    rw [byCaller, List.flatMap_cons, placesIn_append, placesIn_map_of_ne (Ne.symm h.1), ← byCaller,
      ih h.2, List.append_nil]

theorem placesIn_byCaller_of_mem {callers : List MethodId} (hcallers : callers.Nodup) {m : MethodId}
    (places : MethodId → List Location) (h : m ∈ callers) :
    placesIn (byCaller callers places) m = places m := by
  induction callers with
  | nil => simp at h
  | cons n callers ih =>
    rw [List.nodup_cons] at hcallers
    rw [byCaller, List.flatMap_cons, placesIn_append, ← byCaller]
    by_cases hn : n = m
    · subst hn
      rw [placesIn_map_self, placesIn_byCaller_of_not_mem places hcallers.1, List.append_nil]
    · have hm : m ∈ callers := (List.mem_cons.1 h).resolve_left (Ne.symm hn)
      rw [placesIn_map_of_ne hn, ih hcallers.2 hm, List.nil_append]

/-- Grouping references by caller changes neither the order of the callers nor that of the places of
each. -/
theorem sameGroups_byCaller (refs : List Reference) :
    SameGroups (byCaller (callersIn refs) (placesIn refs)) refs where
  callers := by
    refine callersIn_byCaller (nodup_callersIn refs) (fun m hm hnil => ?_)
    obtain ⟨r, hr, he⟩ := mem_callersIn.1 hm
    have hmem := (mem_iff_mem_placesIn he).1 hr
    rw [hnil] at hmem
    simp at hmem
  places m := by
    by_cases hm : m ∈ callersIn refs
    · exact placesIn_byCaller_of_mem (nodup_callersIn refs) _ hm
    · rw [placesIn_byCaller_of_not_mem _ hm, placesIn_eq_nil hm]

/-! ### Indexes built from sources -/

namespace Index

/-- For each method the call graph holds its recorded references, grouped by caller. -/
def InStep (idx : Index) : Prop :=
  ∀ m, (idx.callGraph.getD m .empty).entries =
    (callersIn (idx.methodReferences m)).map (fun c => (c, placesIn (idx.methodReferences m) c))

/-- Adding a call to a group adds a reference. -/
theorem alterIn_groups (refs : List Reference) (caller : MethodId) (place : Location) :
    Table.alterIn caller (fun old => old.getD [] ++ [place])
        ((callersIn refs).map (fun c => (c, placesIn refs c))) =
      (callersIn (refs ++ [⟨some caller, place⟩])).map
        (fun c => (c, placesIn (refs ++ [⟨some caller, place⟩]) c)) := by
  have hself : placesIn (refs ++ [⟨some caller, place⟩]) caller = placesIn refs caller ++ [place] :=
    placesIn_concat_self rfl
  have hother : ∀ c, c ≠ caller → placesIn (refs ++ [⟨some caller, place⟩]) c = placesIn refs c :=
    fun c hc => placesIn_concat_of_ne (by simpa using Ne.symm hc)
  rw [callersIn_concat rfl, addNew]
  by_cases hmem : caller ∈ callersIn refs
  · rw [alterIn_map_of_mem (nodup_callersIn refs) hmem, if_pos (by simpa using hmem)]
    apply List.map_congr_left
    intro c _
    by_cases hc : c = caller
    · simp [hc, hself]
    · simp [hc, hother c hc]
  · rw [alterIn_map_of_not_mem hmem, if_neg (by simpa using hmem), List.map_append]
    congr 1
    · apply List.map_congr_left
      intro c hc
      rw [hother c (fun h => hmem (h ▸ hc))]
    · simp [hself, placesIn_eq_nil hmem]

theorem InStep.recordMethodUse {idx : Index} (h : idx.InStep) (caller target : MethodId)
    (place : Location) : (idx.recordMethodUse caller target place).InStep := by
  intro m
  have hm := h m
  simp only [Index.recordMethodUse, CallGraph.addCall, methodReferences, Table.push,
    Table.getD_alter] at hm ⊢
  split
  next htarget =>
    subst htarget
    exact (congrArg _ hm).trans (alterIn_groups _ caller place)
  next => exact hm

/-- Both are filled together. -/
theorem InStep.record {idx : Index} (h : idx.InStep) (u : Usage) : (idx.record u).InStep := by
  cases u with
  | call site =>
    have hcalls : Index.InStep { idx with callRecord := idx.callRecord.add site } := h
    simp only [Index.record]
    cases site.resolved with
    | none => exact hcalls
    | some target => exact hcalls.recordMethodUse _ _ _
  | field target ref => exact h
  | methodReference target ref =>
    simp only [Index.record]
    cases ref.enclosing with
    | none => exact h
    | some caller => exact h.recordMethodUse _ _ _

theorem InStep.foldl {idx : Index} (h : idx.InStep) (usages : List Usage) :
    (usages.foldl Index.record idx).InStep := by
  induction usages generalizing idx with
  | nil => exact h
  | cons u usages ih => exact ih (h.record u)

theorem inStep_ofFiles (files : List Syntax.SourceFile) (skipped : List String) :
    (Index.ofFiles files skipped).InStep := by
  have hdeclared : (declare (Registry.ofFiles files)).InStep := fun m => rfl
  exact hdeclared.foldl _

theorem InStep.callersOf_eq {idx : Index} (h : idx.InStep) (m : MethodId) :
    idx.callersOf m =
      byCaller (callersIn (idx.methodReferences m)) (placesIn (idx.methodReferences m)) := by
  rw [callersOf, CallGraph.callersOf, h m, List.flatMap_map, byCaller]

theorem InStep.sameGroups {idx : Index} (h : idx.InStep) (m : MethodId) :
    SameGroups (idx.callersOf m) (idx.methodReferences m) := by
  rw [h.callersOf_eq m]
  exact sameGroups_byCaller _

end Index

/-! ### Runs that search differently -/

/-- The runs agree but for the way callers are searched, and what they remember about callers is the
same when grouped. -/
structure Run.Alike (r r' : Run) : Prop where
  settings : r.settings.SameLimits r'.settings
  token : r.token = r'.token
  cache : ∀ k, Option.Rel (k.Related SameGroups) (r.cache.find? k) (r'.cache.find? k)

theorem Run.Alike.store {r r' : Run} (h : r.Alike r') {k : CacheKey} {v v' : k.Answer}
    (hv : k.Related SameGroups v v') :
    Run.Alike { r with cache := r.cache.store k v } { r' with cache := r'.cache.store k v' } := by
  refine ⟨h.settings, h.token, fun k' => ?_⟩
  by_cases hk : k = k'
  · subst hk
    simpa using Option.Rel.some hv
  · simpa [Cache.find?_store_of_ne _ hk] using h.cache k'

/-- Runs that are alike; no failure is excused. -/
def Link.alike : Link where
  rel := Run.Alike
  excused _ _ := False
  cancels := True

namespace Link

theorem alike_checkpoint : Link.alike.Sim Eq Analysis.checkpoint Analysis.checkpoint := by
  intro r r' hr
  rw [Analysis.runOn_checkpoint, Analysis.runOn_checkpoint, ← hr.token]
  have hpolled : Run.Alike { r with token := r.token.poll } { r' with token := r.token.poll } :=
    ⟨hr.settings, rfl, hr.cache⟩
  split
  · exact .error (fun _ => trivial) hpolled
  · exact .ok rfl hpolled

theorem alike_ask (idx : Index) {α : Type} {R : α → α → Prop} (call call' : IndexCall)
    {answer answer' : α} (h : R answer answer') :
    Link.alike.Sim R (IndexAccess.ask { index := idx } call answer)
      (IndexAccess.ask { index := idx } call' answer') := by
  intro r r' hr
  rw [Analysis.runOn_ask, Analysis.runOn_ask]
  exact .ok h ⟨hr.settings, hr.token, hr.cache⟩

/-- Whichever way the callers are searched, they are the same when grouped. -/
theorem alike_callers {idx : Index} (h : idx.InStep) (m : MethodId) :
    Link.alike.Sim SameGroups (Callers.search { index := idx } m)
      (Callers.search { index := idx } m) := by
  refine Link.Sim.get.bind (fun r r' _ => ?_)
  have hgroups := h.sameGroups m
  cases CallerSearch.forSettings r.settings with
  | callGraph =>
    cases CallerSearch.forSettings r'.settings with
    | callGraph => exact alike_ask idx (.callersOf m) (.callersOf m) (.refl _)
    | referenceSearch => exact alike_ask idx (.callersOf m) (.methodReferences m) hgroups
  | referenceSearch =>
    cases CallerSearch.forSettings r'.settings with
    | callGraph => exact alike_ask idx (.methodReferences m) (.callersOf m) hgroups.symm
    | referenceSearch => exact alike_ask idx (.methodReferences m) (.methodReferences m) (.refl _)

theorem alike_cached {k : CacheKey} {x y : Analysis k.Answer}
    (h : Link.alike.Sim (k.Related SameGroups) x y) :
    Link.alike.Sim (k.Related SameGroups) (Analysis.cached k x) (Analysis.cached k y) := by
  intro r r' hr
  have hk := hr.cache k
  cases hfind : r.cache.find? k with
  | some v =>
    cases hfind' : r'.cache.find? k with
    | some v' =>
      rw [hfind, hfind'] at hk
      cases hk with
      | some hv =>
        rw [Analysis.runOn_cached_hit r hfind, Analysis.runOn_cached_hit r' hfind']
        exact .ok hv ⟨hr.settings, hr.token, hr.cache⟩
    | none =>
      rw [hfind, hfind'] at hk
      cases hk
  | none =>
    cases hfind' : r'.cache.find? k with
    | some v' =>
      rw [hfind, hfind'] at hk
      cases hk
    | none =>
      rw [Analysis.runOn_cached_miss r hfind, Analysis.runOn_cached_miss r' hfind']
      have hm := h { r with cache := r.cache.recordMiss k } { r' with cache := r'.cache.recordMiss k }
        ⟨hr.settings, hr.token, hr.cache⟩
      revert hm
      generalize x.runOn { r with cache := r.cache.recordMiss k } = p
      generalize y.runOn { r' with cache := r'.cache.recordMiss k } = q
      intro hm
      cases hm with
      | ok hv hr' => exact .ok hv (Run.Alike.store hr' hv)
      | error he hr' => exact .error he hr'
      | excused he => exact he.elim

end Link

/-- Analyses that search for callers in either way simulate each other. -/
def Simulation.alike {idx : Index} (h : idx.InStep) :
    Simulation { index := idx } (fun _ _ => none) where
  toLink := Link.alike
  refs := SameGroups
  sameGroups hrefs := hrefs
  settings hr := hr.settings
  checkpoint := Link.alike_checkpoint
  ask call _ := Link.alike_ask idx call call rfl
  callers := Link.alike_callers h
  cached _ hk := Link.alike_cached hk

/-- A call tree does not depend on whether callers are searched in the call graph or among the
recorded references. -/
theorem callHierarchy_eq_of_search (files : List Syntax.SourceFile) (skipped : List String)
    (s : Settings) (token : Token) (seed : FieldRef) :
    (Tracer.callHierarchy { index := Index.ofFiles files skipped }
        { s with preferNativeHierarchy := true } token seed).1 =
      (Tracer.callHierarchy { index := Index.ofFiles files skipped }
        { s with preferNativeHierarchy := false } token seed).1 := by
  have hstart : Run.Alike { settings := { s with preferNativeHierarchy := true }, token := token }
      { settings := { s with preferNativeHierarchy := false }, token := token } :=
    ⟨⟨rfl, rfl, rfl, rfl, rfl, rfl⟩, rfl, fun _ => .none⟩
  have hsim := (Simulation.alike (Index.inStep_ofFiles files skipped)).buildHierarchy
    (fun _ _ he => he.elim) (fun _ _ _ _ hr => .ok rfl ⟨hr.settings, hr.token, hr.cache⟩) seed
  exact (hsim _ _ hstart).fst_eq (fun _ _ he => he)

end FieldTrace
