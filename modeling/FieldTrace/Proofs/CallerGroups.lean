import FieldTrace.Hierarchy.Callers

/-! # Callers and places as functions of the references

The callers of some references are listed in order of first occurrence, up to a limit, each with the
distinct places of its references, up to another limit (`collect_eq`). So what is collected depends
on the order of the references only through the order of their first occurrences and the order
inside each caller (`SameGroups`), and this much is kept by all that is done to references before
they are collected: appending, leaving out callers, and merging without repetition. -/

namespace FieldTrace

/-- The callers in order of their first reference. -/
def callersIn (refs : List Reference) : List MethodId :=
  distinct (refs.filterMap Reference.enclosing)

/-- The places of a caller's references in order. -/
def placesIn (refs : List Reference) (m : MethodId) : List Location :=
  (refs.filter (fun r => r.enclosing = some m)).map Reference.location

/-- The same callers in the same order, each with the same places in the same order. -/
structure SameGroups (as bs : List Reference) : Prop where
  callers : callersIn as = callersIn bs
  places : ∀ m, placesIn as m = placesIn bs m

/-! ### Callers and places of parts -/

theorem mem_callersIn {refs : List Reference} {m : MethodId} :
    m ∈ callersIn refs ↔ ∃ r ∈ refs, r.enclosing = some m := by
  simp [callersIn, mem_distinct]

theorem nodup_callersIn (refs : List Reference) : (callersIn refs).Nodup := nodup_distinct _

theorem placesIn_eq_nil {refs : List Reference} {m : MethodId} (h : m ∉ callersIn refs) :
    placesIn refs m = [] := by
  rw [mem_callersIn] at h
  simp only [placesIn, List.map_eq_nil_iff, List.filter_eq_nil_iff, decide_eq_true_eq]
  intro r hr hm
  exact h ⟨r, hr, hm⟩

theorem callersIn_append (as bs : List Reference) :
    callersIn (as ++ bs) =
      callersIn as ++ (callersIn bs).filter (fun m => !(callersIn as).contains m) := by
  rw [callersIn, List.filterMap_append, distinct_append]
  congr 1
  apply List.filter_congr
  intro m _
  simp [callersIn, mem_distinct]

theorem placesIn_append (as bs : List Reference) (m : MethodId) :
    placesIn (as ++ bs) m = placesIn as m ++ placesIn bs m := by
  simp [placesIn]

theorem callersIn_concat {refs : List Reference} {r : Reference} {m : MethodId}
    (h : r.enclosing = some m) : callersIn (refs ++ [r]) = addNew (callersIn refs) m := by
  simp [callersIn, h, distinct_append_singleton]

theorem placesIn_concat_self {refs : List Reference} {r : Reference} {m : MethodId}
    (h : r.enclosing = some m) : placesIn (refs ++ [r]) m = placesIn refs m ++ [r.location] := by
  simp [placesIn, h]

theorem placesIn_concat_of_ne {refs : List Reference} {r : Reference} {m : MethodId}
    (h : r.enclosing ≠ some m) : placesIn (refs ++ [r]) m = placesIn refs m := by
  simp [placesIn, h]

theorem callersIn_filter (p : Option MethodId → Bool) (refs : List Reference) :
    callersIn (refs.filter (fun r => p r.enclosing)) =
      (callersIn refs).filter (fun m => p (some m)) := by
  rw [callersIn, callersIn, ← distinct_filter]
  congr 1
  induction refs with
  | nil => rfl
  | cons r refs ih =>
    cases he : r.enclosing with
    | none => by_cases hp : p none = true <;> simp [he, hp, ih]
    | some m => by_cases hp : p (some m) = true <;> simp [he, hp, ih]

theorem placesIn_filter (p : Option MethodId → Bool) (refs : List Reference) (m : MethodId) :
    placesIn (refs.filter (fun r => p r.enclosing)) m =
      if p (some m) then placesIn refs m else [] := by
  simp only [placesIn, List.filter_filter]
  split
  · next hp =>
    congr 1
    apply List.filter_congr
    intro r _
    by_cases he : r.enclosing = some m <;> simp [he, hp]
  · next hp =>
    simp only [List.map_eq_nil_iff, List.filter_eq_nil_iff]
    intro r _
    by_cases he : r.enclosing = some m <;> simp [he, hp]

/-! ### Merging without repetition -/

theorem mem_iff_mem_placesIn {refs : List Reference} {r : Reference} {m : MethodId}
    (h : r.enclosing = some m) : r ∈ refs ↔ r.location ∈ placesIn refs m := by
  simp only [placesIn, List.mem_map, List.mem_filter, decide_eq_true_eq]
  constructor
  · intro hr
    exact ⟨r, ⟨hr, h⟩, rfl⟩
  · rintro ⟨q, ⟨hq, hm⟩, hl⟩
    have hqr : q = r := by
      cases q
      cases r
      simp_all
    exact hqr ▸ hq

theorem callersIn_addNew (refs : List Reference) (r : Reference) :
    callersIn (addNew refs r) = callersIn (refs ++ [r]) := by
  unfold addNew
  split
  · next h =>
    have hr : r ∈ refs := by simpa using h
    cases he : r.enclosing with
    | none => simp [callersIn, he]
    | some m =>
      have hm : m ∈ callersIn refs := mem_callersIn.mpr ⟨r, hr, he⟩
      simp [callersIn_concat he, addNew, hm]
  · rfl

theorem placesIn_addNew_self {refs : List Reference} {r : Reference} {m : MethodId}
    (h : r.enclosing = some m) :
    placesIn (addNew refs r) m = addNew (placesIn refs m) r.location := by
  have hmem : r ∈ refs ↔ r.location ∈ placesIn refs m := mem_iff_mem_placesIn h
  by_cases hr : r ∈ refs
  · simp [addNew, hr, hmem.mp hr]
  · have hl : r.location ∉ placesIn refs m := fun hl => hr (hmem.mpr hl)
    simp [addNew, hr, hl, placesIn_concat_self h]

theorem placesIn_addNew_of_ne {refs : List Reference} {r : Reference} {m : MethodId}
    (h : r.enclosing ≠ some m) : placesIn (addNew refs r) m = placesIn refs m := by
  unfold addNew
  split
  · rfl
  · exact placesIn_concat_of_ne h

theorem callersIn_merge (as bs : List Reference) :
    callersIn (bs.foldl addNew as) = callersIn (as ++ bs) := by
  induction bs generalizing as with
  | nil => simp
  | cons b bs ih =>
    have h : as ++ b :: bs = as ++ [b] ++ bs := by simp
    rw [List.foldl_cons, ih, h, callersIn_append, callersIn_append (as ++ [b]), callersIn_addNew]

theorem placesIn_merge (as bs : List Reference) (m : MethodId) :
    placesIn (bs.foldl addNew as) m = (placesIn bs m).foldl addNew (placesIn as m) := by
  induction bs generalizing as with
  | nil => rfl
  | cons b bs ih =>
    rw [List.foldl_cons, ih]
    by_cases h : b.enclosing = some m
    · rw [placesIn_addNew_self h]
      simp [placesIn, h]
    · rw [placesIn_addNew_of_ne h]
      simp [placesIn, h]

/-! ### What keeps the groups -/

namespace SameGroups

theorem refl (as : List Reference) : SameGroups as as := ⟨rfl, fun _ => rfl⟩

theorem of_eq {as bs : List Reference} (h : as = bs) : SameGroups as bs := h ▸ refl as

theorem symm {as bs : List Reference} (h : SameGroups as bs) : SameGroups bs as :=
  ⟨h.callers.symm, fun m => (h.places m).symm⟩

variable {as as' bs bs' : List Reference}

theorem append (h : SameGroups as as') (h' : SameGroups bs bs') :
    SameGroups (as ++ bs) (as' ++ bs') where
  callers := by rw [callersIn_append, callersIn_append, h.callers, h'.callers]
  places m := by rw [placesIn_append, placesIn_append, h.places, h'.places]

/-- Leaving out callers keeps the groups of the others. -/
theorem filter (p : Option MethodId → Bool) (h : SameGroups as bs) :
    SameGroups (as.filter (fun r => p r.enclosing)) (bs.filter (fun r => p r.enclosing)) where
  callers := by rw [callersIn_filter, callersIn_filter, h.callers]
  places m := by rw [placesIn_filter, placesIn_filter, h.places]

/-- Merging into a list keeps the groups, also where it drops references that are listed. -/
theorem merge (as : List Reference) (h : SameGroups bs bs') :
    SameGroups (bs.foldl addNew as) (bs'.foldl addNew as) where
  callers := by
    rw [callersIn_merge, callersIn_merge, callersIn_append, callersIn_append, h.callers]
  places m := by rw [placesIn_merge, placesIn_merge, h.places]

end SameGroups

/-! ### Collecting -/

theorem alterIn_map_of_mem {κ α : Type} [DecidableEq κ] {ks : List κ} (hks : ks.Nodup) {k : κ}
    (hk : k ∈ ks) (value : κ → α) (f : Option α → α) :
    Table.alterIn k f (ks.map (fun i => (i, value i))) =
      ks.map (fun i => (i, if i = k then f (some (value k)) else value i)) := by
  induction ks with
  | nil => simp at hk
  | cons i ks ih =>
    rw [List.nodup_cons] at hks
    by_cases hi : i = k
    · subst hi
      have hne : ∀ j ∈ ks, j ≠ i := fun j hj h => hks.1 (h ▸ hj)
      simp only [List.map_cons, Table.alterIn, if_true, List.cons.injEq, true_and]
      apply List.map_congr_left
      intro j hj
      simp [hne j hj]
    · have hk' : k ∈ ks := by
        rcases List.mem_cons.mp hk with h | h
        · exact absurd h.symm hi
        · exact h
      simp [Table.alterIn, hi, ih hks.2 hk']

theorem alterIn_map_of_not_mem {κ α : Type} [DecidableEq κ] {ks : List κ} {k : κ} (hk : k ∉ ks)
    (value : κ → α) (f : Option α → α) :
    Table.alterIn k f (ks.map (fun i => (i, value i))) =
      ks.map (fun i => (i, value i)) ++ [(k, f none)] := by
  induction ks with
  | nil => rfl
  | cons i ks ih =>
    rw [List.mem_cons, not_or] at hk
    simp [Table.alterIn, Ne.symm hk.1, ih hk.2]

namespace CallerGroups

variable {callerLimit callSiteLimit : Nat}

/-- The first places of a caller, each once. -/
def shownPlaces (callSiteLimit : Nat) (refs : List Reference) (m : MethodId) : List Location :=
  (distinct (placesIn refs m)).take callSiteLimit

/-- The groups that some references give: the first callers with their first places; known are the
places of these callers only. -/
structure GroupsOf (callerLimit callSiteLimit : Nat) (refs : List Reference) (g : CallerGroups) :
    Prop where
  entries : g.callers.entries =
    ((callersIn refs).take callerLimit).map (fun m => (m, shownPlaces callSiteLimit refs m))
  seen : ∀ m l, (m, l) ∈ g.seen ↔ m ∈ (callersIn refs).take callerLimit ∧ l ∈ placesIn refs m

theorem GroupsOf.contains_iff {refs : List Reference} {g : CallerGroups}
    (h : GroupsOf callerLimit callSiteLimit refs g) (m : MethodId) :
    g.callers.contains m = true ↔ m ∈ (callersIn refs).take callerLimit := by
  simp [Table.contains_iff, Table.keys, h.entries, Function.comp_def]

theorem GroupsOf.size_eq {refs : List Reference} {g : CallerGroups}
    (h : GroupsOf callerLimit callSiteLimit refs g) :
    g.callers.size = min callerLimit (callersIn refs).length := by
  simp [Table.size, h.entries]

/-- A further place is shown if the limit is not reached. -/
theorem shownPlaces_concat {refs : List Reference} {r : Reference} {m : MethodId}
    (he : r.enclosing = some m) (hl : r.location ∉ placesIn refs m) :
    shownPlaces callSiteLimit (refs ++ [r]) m =
      if (shownPlaces callSiteLimit refs m).length < callSiteLimit then
        shownPlaces callSiteLimit refs m ++ [r.location]
      else shownPlaces callSiteLimit refs m := by
  have hd : r.location ∉ distinct (placesIn refs m) := fun h => hl (mem_distinct.mp h)
  rw [shownPlaces, placesIn_concat_self he, distinct_append_singleton, addNew]
  simp only [List.contains_eq_mem, hd, decide_false, Bool.false_eq_true, if_false, shownPlaces,
    List.length_take]
  split
  · next h =>
    have hlen : (distinct (placesIn refs m)).length < callSiteLimit := by omega
    rw [List.take_of_length_le (by simp; omega), List.take_of_length_le (by omega)]
  · next h =>
    have hlen : callSiteLimit ≤ (distinct (placesIn refs m)).length := by omega
    rw [List.take_append_of_le_length hlen]

theorem shownPlaces_concat_of_mem {refs : List Reference} {r : Reference} {m : MethodId}
    (he : r.enclosing = some m) (hl : r.location ∈ placesIn refs m) :
    shownPlaces callSiteLimit (refs ++ [r]) m = shownPlaces callSiteLimit refs m := by
  simp [shownPlaces, placesIn_concat_self he, distinct_append_singleton, addNew, mem_distinct, hl]

theorem shownPlaces_concat_of_ne {refs : List Reference} {r : Reference} {m : MethodId}
    (he : r.enclosing ≠ some m) :
    shownPlaces callSiteLimit (refs ++ [r]) m = shownPlaces callSiteLimit refs m := by
  rw [shownPlaces, placesIn_concat_of_ne he, shownPlaces]

/-! #### One more reference -/

variable {refs : List Reference} {g : CallerGroups} {r : Reference} {m : MethodId}

theorem GroupsOf.of_no_caller (h : GroupsOf callerLimit callSiteLimit refs g)
    (he : r.enclosing = none) : GroupsOf callerLimit callSiteLimit (refs ++ [r]) g := by
  have hne : ∀ m, r.enclosing ≠ some m := by simp [he]
  have hcallers : callersIn (refs ++ [r]) = callersIn refs := by simp [callersIn, he]
  constructor
  · rw [h.entries, hcallers]
    apply List.map_congr_left
    intro m _
    rw [shownPlaces_concat_of_ne (hne m)]
  · intro m l
    rw [h.seen, hcallers, placesIn_concat_of_ne (hne m)]

/-- A caller beyond the limit changes nothing. -/
theorem GroupsOf.of_surplus (h : GroupsOf callerLimit callSiteLimit refs g)
    (he : r.enclosing = some m) (hm : m ∉ (callersIn refs).take callerLimit)
    (hfull : callerLimit ≤ (callersIn refs).length) :
    GroupsOf callerLimit callSiteLimit (refs ++ [r]) g := by
  have hcallers : (callersIn (refs ++ [r])).take callerLimit =
      (callersIn refs).take callerLimit := by
    rw [callersIn_concat he, addNew]
    split
    · rfl
    · rw [List.take_append_of_le_length hfull]
  have hne : ∀ m' ∈ (callersIn refs).take callerLimit, r.enclosing ≠ some m' := by
    intro m' hm' h'
    rw [he, Option.some.injEq] at h'
    exact hm (h' ▸ hm')
  constructor
  · rw [h.entries, hcallers]
    apply List.map_congr_left
    intro m' hm'
    rw [shownPlaces_concat_of_ne (hne m' hm')]
  · intro m' l
    rw [h.seen, hcallers]
    apply and_congr_right
    intro hm'
    rw [placesIn_concat_of_ne (hne m' hm')]

/-- A place that is known already changes nothing. -/
theorem GroupsOf.of_known (h : GroupsOf callerLimit callSiteLimit refs g)
    (he : r.enclosing = some m) (hm : m ∈ (callersIn refs).take callerLimit)
    (hl : r.location ∈ placesIn refs m) :
    GroupsOf callerLimit callSiteLimit (refs ++ [r]) g := by
  have hcallers : callersIn (refs ++ [r]) = callersIn refs := by
    simp [callersIn_concat he, addNew, List.mem_of_mem_take hm]
  constructor
  · rw [h.entries, hcallers]
    apply List.map_congr_left
    intro m' _
    by_cases hm' : m' = m
    · rw [hm', shownPlaces_concat_of_mem he hl]
    · rw [shownPlaces_concat_of_ne (by simpa [he] using Ne.symm hm')]
  · intro m' l
    rw [h.seen, hcallers]
    apply and_congr_right
    intro _
    by_cases hm' : m' = m
    · subst hm'
      rw [placesIn_concat_self he, List.mem_append, List.mem_singleton]
      constructor
      · exact Or.inl
      · rintro (h' | rfl)
        · exact h'
        · exact hl
    · rw [placesIn_concat_of_ne (by simpa [he] using Ne.symm hm')]

/-- Write a further place of a caller. -/
def addPlace (callSiteLimit : Nat) (g : CallerGroups) (m : MethodId) (l : Location) :
    CallerGroups where
  callers := g.callers.alter m (fun places =>
    if (places.getD []).length < callSiteLimit then places.getD [] ++ [l] else places.getD [])
  seen := (m, l) :: g.seen

theorem GroupsOf.of_new_place (h : GroupsOf callerLimit callSiteLimit refs g)
    (he : r.enclosing = some m) (hm : m ∈ (callersIn refs).take callerLimit)
    (hl : r.location ∉ placesIn refs m) :
    GroupsOf callerLimit callSiteLimit (refs ++ [r]) (g.addPlace callSiteLimit m r.location) := by
  have hcallers : callersIn (refs ++ [r]) = callersIn refs := by
    simp [callersIn_concat he, addNew, List.mem_of_mem_take hm]
  have hnodup : ((callersIn refs).take callerLimit).Nodup :=
    (nodup_callersIn refs).sublist (List.take_sublist _ _)
  constructor
  · rw [addPlace, Table.alter, h.entries, alterIn_map_of_mem hnodup hm, hcallers]
    apply List.map_congr_left
    intro m' _
    by_cases hm' : m' = m
    · rw [hm', if_pos rfl, Option.getD_some, shownPlaces_concat he hl]
    · rw [if_neg hm', shownPlaces_concat_of_ne (by simpa [he] using Ne.symm hm')]
  · intro m' l
    rw [addPlace, List.mem_cons, h.seen, hcallers]
    by_cases hm' : m' = m
    · subst hm'
      simp [placesIn_concat_self he, hm, or_comm]
    · simp [hm', placesIn_concat_of_ne (show r.enclosing ≠ some m' by simpa [he] using Ne.symm hm')]

theorem GroupsOf.of_new_caller (h : GroupsOf callerLimit callSiteLimit refs g)
    (he : r.enclosing = some m) (hm : m ∉ callersIn refs)
    (hroom : (callersIn refs).length < callerLimit) :
    GroupsOf callerLimit callSiteLimit (refs ++ [r]) (g.addPlace callSiteLimit m r.location) := by
  have hplaces : placesIn refs m = [] := placesIn_eq_nil hm
  have hshown : shownPlaces callSiteLimit refs m = [] := by simp [shownPlaces, hplaces, distinct]
  have hcallers : callersIn (refs ++ [r]) = callersIn refs ++ [m] := by
    simp [callersIn_concat he, addNew, hm]
  have htake : (callersIn refs).take callerLimit = callersIn refs :=
    List.take_of_length_le (by omega)
  have htake' : (callersIn refs ++ [m]).take callerLimit = callersIn refs ++ [m] :=
    List.take_of_length_le (by simp; omega)
  have hne : ∀ m' ∈ callersIn refs, r.enclosing ≠ some m' := by
    intro m' hm' h'
    rw [he, Option.some.injEq] at h'
    exact hm (h' ▸ hm')
  constructor
  · have hold : (callersIn refs).map (fun m => (m, shownPlaces callSiteLimit refs m)) =
        (callersIn refs).map (fun m => (m, shownPlaces callSiteLimit (refs ++ [r]) m)) := by
      apply List.map_congr_left
      intro m' hm'
      rw [shownPlaces_concat_of_ne (hne m' hm')]
    simp only [addPlace, Table.alter, h.entries, htake, alterIn_map_of_not_mem hm, hcallers,
      htake', List.map_append, List.map_singleton, hold, Option.getD_none,
      shownPlaces_concat he (by simp [hplaces] : r.location ∉ placesIn refs m), hshown]
  · intro m' l
    rw [addPlace, List.mem_cons, h.seen, hcallers, htake, htake']
    by_cases hm' : m' = m
    · subst hm'
      simp [placesIn_concat_self he, hm, hplaces]
    · simp [hm', placesIn_concat_of_ne (show r.enclosing ≠ some m' by simpa [he] using Ne.symm hm')]

/-! #### All references -/

/-- One more reference is taken up as the limits allow. -/
theorem GroupsOf.add (h : GroupsOf callerLimit callSiteLimit refs g) (r : Reference) :
    GroupsOf callerLimit callSiteLimit (refs ++ [r]) (g.add callerLimit callSiteLimit r) := by
  cases he : r.enclosing with
  | none =>
    simp only [CallerGroups.add, he]
    exact h.of_no_caller he
  | some m =>
    simp only [CallerGroups.add, he, addCall]
    by_cases hm : m ∈ (callersIn refs).take callerLimit
    · have hc : g.callers.contains m = true := (h.contains_iff m).mpr hm
      rw [if_neg (by simp [hc])]
      by_cases hl : r.location ∈ placesIn refs m
      · rw [if_pos (by simpa using (h.seen m r.location).mpr ⟨hm, hl⟩)]
        exact h.of_known he hm hl
      · rw [if_neg (by simpa using fun hs => hl ((h.seen m r.location).mp hs).2)]
        exact h.of_new_place he hm hl
    · have hc : g.callers.contains m = false := by
        simpa using mt (h.contains_iff m).mp hm
      by_cases hfull : callerLimit ≤ (callersIn refs).length
      · rw [if_pos (by simp [hc, h.size_eq]; omega)]
        exact h.of_surplus he hm hfull
      · have hm' : m ∉ callersIn refs := by
          rwa [List.take_of_length_le (by omega)] at hm
        rw [if_neg (by simp [hc, h.size_eq]; omega),
          if_neg (by simpa using fun hs => hm ((h.seen m r.location).mp hs).1)]
        exact h.of_new_caller he hm' (by omega)

theorem groupsOf_foldl (todo : List Reference) (h : GroupsOf callerLimit callSiteLimit refs g) :
    GroupsOf callerLimit callSiteLimit (refs ++ todo)
      (todo.foldl (CallerGroups.add callerLimit callSiteLimit) g) := by
  induction todo generalizing refs g with
  | nil => simpa using h
  | cons r todo ih => simpa using ih (h.add r)

/-- All references are taken up one after the other. -/
theorem groupsOf_refs (callerLimit callSiteLimit : Nat) (refs : List Reference) :
    GroupsOf callerLimit callSiteLimit refs
      (refs.foldl (CallerGroups.add callerLimit callSiteLimit) {}) := by
  have hnil : GroupsOf callerLimit callSiteLimit [] {} :=
    ⟨by simp [callersIn, distinct, Table.empty], by simp [callersIn, distinct]⟩
  have hrefs := groupsOf_foldl refs hnil
  rwa [List.nil_append] at hrefs

/-- The first callers, each with its first distinct places. -/
theorem collect_eq (callerLimit callSiteLimit : Nat) (refs : List Reference) :
    collect callerLimit callSiteLimit refs =
      ((callersIn refs).take callerLimit).flatMap
        (fun m => (shownPlaces callSiteLimit refs m).map (fun l => (m, l))) := by
  rw [collect, (groupsOf_refs callerLimit callSiteLimit refs).entries, List.flatMap_map]

/-- What is collected depends on the groups only. -/
theorem collect_congr {as bs : List Reference} (h : SameGroups as bs)
    (callerLimit callSiteLimit : Nat) :
    collect callerLimit callSiteLimit as = collect callerLimit callSiteLimit bs := by
  have hshown : shownPlaces callSiteLimit as = shownPlaces callSiteLimit bs := by
    funext m
    rw [shownPlaces, h.places, shownPlaces]
  rw [collect_eq, collect_eq, h.callers, hshown]

end CallerGroups

end FieldTrace
