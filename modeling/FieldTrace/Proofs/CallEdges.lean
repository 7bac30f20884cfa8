import FieldTrace.Proofs.Counting
import FieldTrace.Proofs.Integrity

/-! # The call graph and the recorded references

Every resolved call, constructor call and method reference is written twice: as an edge of the call
graph and as a reference to its target. The callers that the graph lists for a method are therefore
its references put together by caller (`groupedByCaller`), and the edges are as many as the
references to all declared methods (`Index.CallsAgree`). -/

namespace FieldTrace

/-! ### Grouping references -/

/-- The references put together by caller: the callers in order of their first reference, and the
references of each in their own order. -/
def groupedByCaller (refs : List Reference) : List Reference :=
  (distinct (refs.map Reference.enclosing)).flatMap
    (fun q => refs.filter (fun r => r.enclosing = q))

example (l₁ l₂ l₃ : Location) :
    let a : MethodId := ⟨"A", "f", []⟩
    let b : MethodId := ⟨"B", "g", []⟩
    groupedByCaller [⟨some a, l₁⟩, ⟨some b, l₂⟩, ⟨some a, l₃⟩] =
      [⟨some a, l₁⟩, ⟨some a, l₃⟩, ⟨some b, l₂⟩] := rfl

theorem distinct_map {α β : Type} [DecidableEq α] [DecidableEq β] {f : α → β}
    (hf : ∀ a b, f a = f b → a = b) (as : List α) : distinct (as.map f) = (distinct as).map f := by
  induction as with
  | nil => rfl
  | cons a as ih =>
    simp only [List.map_cons, distinct, ih, List.filter_map]
    congr 2
    apply List.filter_congr
    intro b _
    have hiff : f b = f a ↔ b = a := ⟨hf b a, fun h => h ▸ rfl⟩
    simp only [Function.comp_apply, hiff]

/-- Where every reference has a caller, grouping is by the callers and their places. -/
theorem byCaller_eq_groupedByCaller {refs : List Reference}
    (h : ∀ r ∈ refs, r.enclosing.isSome = true) :
    byCaller (callersIn refs) (placesIn refs) = groupedByCaller refs := by
  have hcallers : refs.map Reference.enclosing = (refs.filterMap Reference.enclosing).map some := by
    induction refs with
    | nil => rfl
    | cons r refs ih =>
      obtain ⟨hr, hrefs⟩ := List.forall_mem_cons.1 h
      obtain ⟨m, hm⟩ := Option.isSome_iff_exists.1 hr
      rw [List.map_cons, ih hrefs, List.filterMap_cons_some hm, List.map_cons, hm]
  have hplaces : ∀ m, (placesIn refs m).map (fun l => (⟨some m, l⟩ : Reference)) =
      refs.filter (fun r => r.enclosing = some m) := by
    intro m
    rw [placesIn, List.map_map]
    refine (List.map_congr_left (g := id) (fun r hr => ?_)).trans (List.map_id _)
    have hm : r.enclosing = some m := of_decide_eq_true (List.mem_filter.1 hr).2
    obtain ⟨caller, place⟩ := r
    cases hm
    rfl
  rw [groupedByCaller, hcallers, distinct_map (fun _ _ => Option.some.inj), List.flatMap_map]
  exact List.flatMap_congr (fun m _ => hplaces m)

theorem groupedByCaller_perm (refs : List Reference) : (groupedByCaller refs).Perm refs :=
  perm_flatMap_filter Reference.enclosing (nodup_distinct _)
    (fun _ hr => mem_distinct.2 (List.mem_map_of_mem hr))

/-! ### Counting edges -/

/-- The edges of a graph are those that lead to its nodes. -/
theorem CallGraph.callCount_eq {R : MethodId → Table MethodId (List Location) → Prop}
    {g : CallGraph} (h : g.Keyed R) :
    g.callCount = total (g.keys.map (fun m => (g.callersOf m).length)) := by
  rw [callCount, Table.values, Table.keys, List.map_map, List.map_map]
  congr 1
  refine List.map_congr_left (fun e he => ?_)
  have hcallers : g.getD e.1 .empty = e.2 := by
    rw [Table.getD, h.get?_of_mem he]
    rfl
  simp only [Function.comp_apply, callersOf, hcallers, length_flatMap_eq_total, List.length_map,
    Table.values, List.map_map]
  rfl

namespace Index

/-! ### Indexes built from sources -/

/-- The call graph and the table of references say the same about the uses of methods. -/
structure CallsAgree (idx : Index) : Prop where
  /-- The callers of a method are its references, put together by caller. -/
  grouped : ∀ m, idx.callersOf m = groupedByCaller (idx.methodReferences m)
  /-- So nothing is lost, added or repeated. -/
  perm : ∀ m, (idx.callersOf m).Perm (idx.methodReferences m)
  /-- A method that is not declared has neither. -/
  unknown : ∀ m, idx.method m = none → idx.callersOf m = [] ∧ idx.methodReferences m = []
  /-- The edges counted are the references to all declared methods. -/
  edges : idx.stats.callEdges =
    total (idx.methods.keys.map (fun m => (idx.methodReferences m).length))

variable (files : List Syntax.SourceFile) (skipped : List String)

/-- What is recorded concerns declared methods and fields, whatever the names of the types. -/
theorem recordsOnly_ofFiles :
    (ofFiles files skipped).RecordsOnly (declare (Registry.ofFiles files)).Declares
      (declare (Registry.ofFiles files)).DeclaresField := by
  have hdeclared : (declare (Registry.ofFiles files)).RecordsOnly
      (declare (Registry.ofFiles files)).Declares
      (declare (Registry.ofFiles files)).DeclaresField :=
    ⟨by rintro c ⟨⟩, Table.keyed_empty, Table.keyed_empty, Table.keyed_empty⟩
  have husages := hdeclared.foldl (fun u hu => concerns_usages hu)
  exact ⟨husages.calls, husages.edges, husages.methodUses, husages.fieldUses⟩

/-- A method that is referred to is declared, and so is the method that refers to it. -/
theorem declares_of_mem_methodReferences {m : MethodId} {r : Reference}
    (h : r ∈ (ofFiles files skipped).methodReferences m) :
    (declare (Registry.ofFiles files)).Declares m ∧
      r.InMethod (declare (Registry.ofFiles files)).Declares := by
  rw [methodReferences, Table.getD] at h
  cases hget : (ofFiles files skipped).methodUses.get? m with
  | none =>
    rw [hget] at h
    cases h
  | some places =>
    rw [hget] at h
    obtain ⟨hm, hplaces⟩ := (recordsOnly_ofFiles files skipped).methodUses.get? hget
    exact ⟨hm, hplaces r h⟩

theorem callersOf_eq_groupedByCaller (m : MethodId) :
    (ofFiles files skipped).callersOf m =
      groupedByCaller ((ofFiles files skipped).methodReferences m) := by
  rw [← byCaller_eq_groupedByCaller, (inStep_ofFiles files skipped).callersOf_eq]
  intro r hr
  obtain ⟨-, q, hq, -⟩ := declares_of_mem_methodReferences files skipped hr
  rw [hq]
  rfl

theorem methodReferences_eq_nil {m : MethodId} (h : (ofFiles files skipped).method m = none) :
    (ofFiles files skipped).methodReferences m = [] := by
  rw [List.eq_nil_iff_forall_not_mem]
  intro r hr
  obtain ⟨hm, -⟩ := declares_of_mem_methodReferences files skipped hr
  rw [method, (declared_ofFiles files skipped).2.1] at h
  rw [Declares, method, h] at hm
  cases hm

/-- The edges lead to declared methods, and a method without an edge has no references. -/
theorem callEdges_eq :
    (ofFiles files skipped).stats.callEdges = total ((ofFiles files skipped).methods.keys.map
      (fun m => ((ofFiles files skipped).methodReferences m).length)) := by
  have hedges := (recordsOnly_ofFiles files skipped).edges
  have hlength : ∀ m, ((ofFiles files skipped).callGraph.callersOf m).length =
      ((ofFiles files skipped).methodReferences m).length := by
    intro m
    have hgrouped := callersOf_eq_groupedByCaller files skipped m
    rw [callersOf] at hgrouped
    rw [hgrouped]
    exact (groupedByCaller_perm _).length_eq
  have hmethods : (ofFiles files skipped).methods.keys.Nodup := by
    rw [(declared_ofFiles files skipped).2.1]
    exact (Table.Keyed.foldl_insertNew (R := fun _ _ => True) (fun _ _ => trivial)
      Table.keyed_empty).nodup
  rw [stats, CallGraph.callCount_eq hedges]
  simp only [hlength]
  refine total_map_of_subset hedges.nodup hmethods (fun m hm => ?_) (fun m _ hm => ?_)
  · obtain ⟨e, he, rfl⟩ := List.mem_map.1 hm
    rw [(declared_ofFiles files skipped).2.1]
    exact (Table.contains_iff _ _).1 (hedges.entry e he).1
  · rw [← hlength]
    have hnone : (ofFiles files skipped).callGraph.get? m = none := by
      rw [← Option.not_isSome_iff_eq_none]
      exact fun h => hm ((Table.contains_iff _ _).1 h)
    rw [CallGraph.callersOf, Table.getD, hnone]
    rfl

/-- In the index of any files the call graph and the table of references stay in step. -/
theorem callsAgree_ofFiles : (ofFiles files skipped).CallsAgree where
  grouped := callersOf_eq_groupedByCaller files skipped
  perm m := by
    rw [callersOf_eq_groupedByCaller]
    exact groupedByCaller_perm _
  unknown m hm := by
    rw [callersOf_eq_groupedByCaller, methodReferences_eq_nil files skipped hm]
    exact ⟨rfl, rfl⟩
  edges := callEdges_eq files skipped

end Index

end FieldTrace
