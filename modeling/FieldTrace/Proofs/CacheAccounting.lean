import FieldTrace.Proofs.CacheHistories
import FieldTrace.Proofs.Counting
import FieldTrace.Proofs.KeyedTables
import Mathlib.Data.List.Induction

/-! # The accounts of a cache

The counters of a cache are compared with the notes of its observer. A miss is counted before the
value is computed and the entry is made afterwards, so that meanwhile there are more misses than
entries, one for each value that is being computed (`Cache.Accounted.missed`). As long as nobody asks
for a value that is being computed, an entry is made once and holds the first value that a factory
returned for its key. -/

namespace FieldTrace

namespace Cache

variable {κ σ ε : Type} {Value : κ → Type} [DecidableEq κ] [Grouped κ]

/-! ### What the notes say -/

namespace Event

/-- Does a call for a key of the group begin? -/
def asksIn (g : String) : Event κ Value → Bool
  | asked k _ => group k = g
  | _ => false

/-- The value that the factory of the key returns. -/
def valueFor? (k : κ) : Event κ Value → Option (Value k)
  | computed j v => if h : j = k then some (h ▸ v) else none
  | _ => none

/-- If a call begins, is its value not being computed already? -/
def isFresh : Event κ Value → Bool
  | asked k pending => k ∉ pending
  | _ => true

/-- The key of the group for which a call returns a value. -/
def keyIn? (g : String) : Event κ Value → Option κ
  | returned k _ => if group k = g then some k else none
  | _ => none

end Event

/-- The number of calls for keys of a group. -/
def callsIn (g : String) (log : List (Event κ Value)) : Nat := log.countP (Event.asksIn g)

/-- The value of the first factory that returned one for the key. -/
def firstValue? (k : κ) (log : List (Event κ Value)) : Option (Value k) :=
  log.findSome? (Event.valueFor? k)

/-- The keys of a group for which some call returned a value. -/
def answeredIn (g : String) (log : List (Event κ Value)) : List κ :=
  distinct (log.filterMap (Event.keyIn? g))

omit [DecidableEq κ] in
theorem callsIn_asked (g : String) (log : List (Event κ Value)) (k : κ) (pending : List κ)
    {rest : List (Event κ Value)} (hrest : ∀ e ∈ rest, e.asksIn g = false) :
    callsIn g (log ++ .asked k pending :: rest) =
      callsIn g log + if group k = g then 1 else 0 := by
  have hnone : rest.countP (Event.asksIn g) = 0 :=
    List.countP_eq_zero.2 (fun e he => Bool.eq_false_iff.1 (hrest e he))
  rw [callsIn, List.countP_append, List.countP_cons, hnone, Nat.zero_add]
  by_cases h : group k = g <;> simp [callsIn, Event.asksIn, h]

omit [Grouped κ] in
theorem firstValue?_append (k : κ) (log rest : List (Event κ Value)) :
    firstValue? k (log ++ rest) = (firstValue? k log).or (firstValue? k rest) :=
  List.findSome?_append

omit [Grouped κ] in
/-- Other notes do not change the first value. -/
theorem firstValue?_append_of_none {k : κ} (log : List (Event κ Value))
    {rest : List (Event κ Value)} (h : ∀ e ∈ rest, e.valueFor? k = none) :
    firstValue? k (log ++ rest) = firstValue? k log := by
  have hrest : firstValue? k rest = none := List.findSome?_eq_none_iff.2 h
  rw [firstValue?_append, hrest, Option.or_none]

theorem mem_answeredIn {g : String} {k : κ} {log : List (Event κ Value)} :
    k ∈ answeredIn g log ↔ group k = g ∧ ∃ v, .returned k v ∈ log := by
  rw [answeredIn, mem_distinct, List.mem_filterMap]
  constructor
  · rintro ⟨e, he, hk⟩
    cases e with
    | asked | computed => cases hk
    | returned j v =>
      rw [Event.keyIn?] at hk
      split at hk
      next hg =>
        cases hk
        exact ⟨hg, v, he⟩
      next => cases hk
  · rintro ⟨hg, v, hv⟩
    exact ⟨.returned k v, hv, if_pos hg⟩

/-! ### What the cache does to its counts -/

section

variable (c : Cache κ Value) (k : κ) (g : String)

omit [DecidableEq κ] in
theorem getD_alter_add_one (t : Table String Nat) :
    (t.alter (group k) (fun n => n.getD 0 + 1)).getD g 0 =
      t.getD g 0 + if group k = g then 1 else 0 := by
  rw [Table.getD_alter]
  split
  next h => rw [← h]; rfl
  next => rfl

omit [DecidableEq κ] in
theorem hits_recordHit : ((c.recordHit k).counts g).hits =
    (c.counts g).hits + if group k = g then 1 else 0 :=
  getD_alter_add_one k g c.hits

omit [DecidableEq κ] in
theorem misses_recordMiss : ((c.recordMiss k).counts g).misses =
    (c.counts g).misses + if group k = g then 1 else 0 :=
  getD_alter_add_one k g c.misses

omit [Grouped κ] in
theorem isSome_findIn_iff {es : List ((k : κ) × Value k)} :
    (findIn k es).isSome = true ↔ k ∈ es.map Sigma.fst := by
  induction es with
  | nil => simp [findIn]
  | cons e es ih =>
    rw [findIn, List.map_cons, List.mem_cons]
    by_cases h : e.1 = k
    · simp [h]
    · rw [dif_neg h, ih]
      simp [Ne.symm h]

omit [Grouped κ] in
theorem isSome_find?_iff : (c.find? k).isSome = true ↔ k ∈ c.entries.map Sigma.fst :=
  isSome_findIn_iff k

omit [Grouped κ] in
theorem storeIn_of_notMem {es : List ((k : κ) × Value k)} (h : k ∉ es.map Sigma.fst)
    (v : Value k) : storeIn k v es = es ++ [⟨k, v⟩] := by
  induction es with
  | nil => rfl
  | cons e es ih =>
    rw [List.map_cons, List.mem_cons, not_or] at h
    rw [storeIn, if_neg (Ne.symm h.1), ih h.2]
    rfl

omit [Grouped κ] in
variable {c k} in
/-- A new entry comes last. -/
theorem entries_store (h : c.find? k = none) (v : Value k) :
    (c.store k v).entries = c.entries ++ [⟨k, v⟩] := by
  refine storeIn_of_notMem k (fun hmem => ?_) v
  rw [← isSome_find?_iff, h] at hmem
  cases hmem

variable {c k} in
theorem counts_store (h : c.find? k = none) (v : Value k) :
    ((c.store k v).counts g).entries = (c.counts g).entries + if group k = g then 1 else 0 := by
  show ((c.store k v).entries.filter (fun e => group e.1 = g)).length = _
  rw [entries_store h, List.filter_append, List.length_append]
  by_cases hg : group k = g <;> simp [counts, hg]

end

/-! ### The accounts -/

omit [DecidableEq κ] in
theorem length_filter_group_cons (k : κ) (pending : List κ) (g : String) :
    ((k :: pending).filter (fun j => group j = g)).length =
      (pending.filter (fun j => group j = g)).length + if group k = g then 1 else 0 := by
  by_cases h : group k = g <;> simp [h]

/-- The cache is what the notes say, while the values of some keys are being computed. -/
structure Accounted (pending : List κ) (c : Cache κ Value) (log : List (Event κ Value)) : Prop where
  /-- Every call is a hit or a miss. -/
  calls : ∀ g, (c.counts g).hits + (c.counts g).misses = callsIn g log
  /-- Every entry has its miss, and so has every value that is being computed. -/
  missed : ∀ g, (c.counts g).entries + (pending.filter (fun k => group k = g)).length ≤
    (c.counts g).misses
  hits : c.hits.Keyed (fun _ n => 0 < n)
  misses : c.misses.Keyed (fun _ n => 0 < n)
  nodup : (c.entries.map Sigma.fst).Nodup
  keeps : ∀ k, c.find? k = firstValue? k log
  returned : ∀ k v, c.find? k = some v ↔ .returned k v ∈ log
  absent : ∀ k ∈ pending, c.find? k = none

namespace Accounted

variable {pending : List κ} {c : Cache κ Value} {log : List (Event κ Value)} {k : κ}

theorem empty : Accounted [] ({} : Cache κ Value) [] where
  calls _ := rfl
  missed _ := Nat.le_refl 0
  hits := Table.keyed_empty
  misses := Table.keyed_empty
  nodup := .nil
  keeps _ := rfl
  returned k v := by
    constructor
    · intro h
      cases h
    · intro h
      cases h
  absent _ h := by cases h

/-- A call that finds its value is counted and returns what is kept. -/
theorem hit (h : Accounted pending c log) {v : Value k} (hfind : c.find? k = some v)
    (asking : List κ) :
    Accounted pending (c.recordHit k) (log ++ [.asked k asking, .returned k v]) where
  calls g := by
    rw [hits_recordHit, callsIn_asked g log k asking (by simp [Event.asksIn]), ← h.calls g]
    exact Nat.add_right_comm _ _ _
  missed := h.missed
  hits := h.hits.alter _ (fun _ _ => Nat.succ_pos _)
  misses := h.misses
  nodup := h.nodup
  keeps j := by
    rw [firstValue?_append_of_none log (by simp [Event.valueFor?])]
    exact h.keeps j
  returned j u := by
    rw [List.mem_append, ← h.returned j u]
    refine ⟨.inl, fun hu => hu.elim id (fun hu => ?_)⟩
    simp only [List.mem_cons, List.not_mem_nil, or_false, reduceCtorEq, false_or] at hu
    cases hu
    exact hfind
  absent := h.absent

/-- A call that does not find its value is counted, and the value is being computed from then on. -/
theorem miss (h : Accounted pending c log) (hfind : c.find? k = none) (asking : List κ) :
    Accounted (k :: pending) (c.recordMiss k) (log ++ [.asked k asking]) where
  calls g := by
    rw [misses_recordMiss, callsIn_asked g log k asking (by simp), ← h.calls g]
    exact (Nat.add_assoc _ _ _).symm
  missed g := by
    rw [misses_recordMiss, length_filter_group_cons, ← Nat.add_assoc]
    exact Nat.add_le_add_right (h.missed g) _
  hits := h.hits
  misses := h.misses.alter _ (fun _ _ => Nat.succ_pos _)
  nodup := h.nodup
  keeps j := by
    rw [firstValue?_append_of_none log (by simp [Event.valueFor?])]
    exact h.keeps j
  returned j u := by
    rw [List.mem_append, ← h.returned j u]
    refine ⟨.inl, fun hu => hu.elim id (fun hu => ?_)⟩
    cases List.mem_singleton.1 hu
  absent j hj := by
    obtain rfl | hj := List.mem_cons.1 hj
    · exact hfind
    · exact h.absent j hj

/-- A value whose factory raises an exception is no longer being computed. -/
theorem fail (h : Accounted (k :: pending) c log) : Accounted pending c log where
  calls := h.calls
  missed g := by
    have hmissed := h.missed g
    rw [length_filter_group_cons, ← Nat.add_assoc] at hmissed
    exact Nat.le_of_add_right_le hmissed
  hits := h.hits
  misses := h.misses
  nodup := h.nodup
  keeps := h.keeps
  returned := h.returned
  absent j hj := h.absent j (List.mem_cons_of_mem k hj)

/-- A value that has been computed is kept and returned. -/
theorem fill (h : Accounted (k :: pending) c log) (hk : k ∉ pending) (v : Value k) :
    Accounted pending (c.store k v) (log ++ [.computed k v, .returned k v]) := by
  have hnew : c.find? k = none := h.absent k List.mem_cons_self
  refine ⟨fun g => ?_, fun g => ?_, h.hits, h.misses, ?_, fun j => ?_, fun j u => ?_, fun j hj => ?_⟩
  · have hcalls : callsIn g (log ++ [.computed k v, .returned k v]) = callsIn g log := by
      simp [callsIn, Event.asksIn]
    rw [hcalls]
    exact h.calls g
  · have hmissed := h.missed g
    rw [length_filter_group_cons, ← Nat.add_assoc] at hmissed
    rw [counts_store g hnew, Nat.add_right_comm]
    exact hmissed
  · rw [entries_store hnew, List.map_append]
    refine List.nodup_append.2 ⟨h.nodup, by simp, fun j hj i hi heq => ?_⟩
    rw [List.map_singleton, List.mem_singleton] at hi
    rw [heq, hi, ← isSome_find?_iff, hnew] at hj
    cases hj
  · rw [firstValue?_append, ← h.keeps j]
    by_cases hj : k = j
    · subst hj
      rw [find?_store_self, hnew]
      simp [firstValue?, Event.valueFor?]
    · rw [find?_store_of_ne c hj]
      simp [firstValue?, Event.valueFor?, hj]
  · by_cases hj : k = j
    · subst hj
      rw [find?_store_self]
      simp only [List.mem_append, ← h.returned, hnew]
      simp [eq_comm]
    · rw [find?_store_of_ne c hj, h.returned]
      have hne : j ≠ k := Ne.symm hj
      simp [hne]
  · have hne : k ≠ j := fun heq => hk (heq ▸ hj)
    rw [find?_store_of_ne c hne]
    exact h.absent j (List.mem_cons_of_mem k hj)

end Accounted

/-! ### Every history is accounted for -/

/-- Nobody asks for a value that is being computed. -/
def Orderly (log : List (Event κ Value)) : Prop := ∀ e ∈ log, e.isFresh = true

instance (log : List (Event κ Value)) : Decidable (Orderly log) :=
  inferInstanceAs (Decidable (∀ e ∈ log, e.isFresh = true))

omit [Grouped κ] in
theorem Orderly.notMem {log : List (Event κ Value)} (h : Orderly log) {k : κ} {asking : List κ}
    (hk : .asked k asking ∈ log) : k ∉ asking :=
  of_decide_eq_true (h _ hk)

omit [Grouped κ] in
theorem Orderly.of_isPrefix {log log' : List (Event κ Value)} (h : Orderly log')
    (hlog : log <+: log') : Orderly log :=
  fun e he => h e (hlog.subset he)

variable {part : Part σ κ Value} {pending : List κ} {w w' : Watched σ κ Value}

/-- Whatever happens keeps the accounts. -/
theorem Leads.accounted (h : Leads part pending w w')
    (hw : Accounted pending (part.view w.state) w.log) (horderly : Orderly w'.log) :
    Accounted pending (part.view w'.state) w'.log := by
  induction h with
  | done => exact hw
  | outside _ hview ih =>
    rw [hview]
    exact ih hw horderly
  | @found pending _ w' k v _ hfind ih =>
    have hw' := ih hw (horderly.of_isPrefix (List.prefix_append _ _))
    rw [view_hit]
    exact hw'.hit hfind pending
  | @failed pending _ w₁ w₂ k h hfind hinner ih ihInner =>
    have hw₁ := ih hw (horderly.of_isPrefix
      ((List.prefix_append _ _).trans hinner.log_isPrefix))
    have hmiss := hw₁.miss hfind pending
    rw [← view_miss] at hmiss
    exact (ihInner hmiss horderly).fail
  | @filled pending _ w₁ w₂ k v h hfind hinner ih ihInner =>
    have horderly₂ : Orderly w₂.log := horderly.of_isPrefix (List.prefix_append _ _)
    have hw₁ := ih hw (horderly₂.of_isPrefix ((List.prefix_append _ _).trans hinner.log_isPrefix))
    have hmiss := hw₁.miss hfind pending
    rw [← view_miss] at hmiss
    -- the call for this value began while the others were being computed
    have hasked : .asked k pending ∈ w₂.log :=
      hinner.log_isPrefix.subset (List.mem_append_right _ List.mem_cons_self)
    rw [view_fill]
    exact (ihInner hmiss horderly₂).fill (horderly₂.notMem hasked) v

theorem accounted_after (s : σ) (requests : List (Request part ε))
    (horderly : Orderly (part.after s requests).log) :
    Accounted [] (part.view (part.after s requests).state) (part.after s requests).log := by
  induction requests using List.reverseRecOn with
  | nil =>
    have hview : part.view (part.update (fun _ => {}) s) = {} := part.view_update _ s
    show Accounted [] (part.view (part.update (fun _ => {}) s)) []
    rw [hview]
    exact .empty
  | append_singleton requests r ih =>
    have hafter : part.after s (requests ++ [r]) = r.serve (part.after s requests) := by
      rw [Part.after, List.foldl_append]
      rfl
    rw [hafter] at horderly ⊢
    cases r with
    | ask k factory =>
      have hleads : Leads part [] (part.after s requests)
          (Request.serve (part.after s requests) (.ask k factory)) :=
        leads_call (fun w => factory.leads [k] w) _
      exact hleads.accounted (ih (horderly.of_isPrefix hleads.log_isPrefix)) horderly
    | clear =>
      have hview : part.view ((.clear : Request part ε).serve (part.after s requests)).state = {} :=
        part.view_update _ _
      rw [hview]
      exact .empty

end Cache

/-! ### The rows and their sum -/

/-- The counts of several groups together. -/
def CacheCounts.sum (rows : List CacheCounts) : CacheCounts where
  hits := total (rows.map CacheCounts.hits)
  misses := total (rows.map CacheCounts.misses)
  entries := total (rows.map CacheCounts.entries)

theorem Table.Keyed.total_values {κ : Type} [DecidableEq κ] {R : κ → Nat → Prop} {t : Table κ Nat}
    (h : t.Keyed R) : total t.values = total (t.keys.map (fun k => t.getD k 0)) := by
  rw [Table.values, Table.keys, List.map_map]
  refine congrArg total (List.map_congr_left (fun e he => ?_))
  rw [Function.comp_apply, Table.getD, h.get?_of_mem he]
  rfl

namespace Cache

variable {κ σ ε : Type} {Value : κ → Type} [DecidableEq κ] [Grouped κ] {pending : List κ}
  {c : Cache κ Value} {log : List (Event κ Value)} {g : String}

omit [DecidableEq κ] [Grouped κ] in
theorem nodup_groups : c.groups.Nodup :=
  (stableSort_perm _ _).nodup_iff.2 (nodup_distinct _)

omit [DecidableEq κ] [Grouped κ] in
theorem mem_groups_iff : g ∈ c.groups ↔ g ∈ c.hits.keys ∨ g ∈ c.misses.keys := by
  rw [groups, mem_stableSort, mem_distinct, List.mem_append]

/-- A counter that is written stands above zero. -/
theorem mem_keys_iff_pos {t : Table String Nat} (h : t.Keyed (fun _ n => 0 < n)) :
    g ∈ t.keys ↔ 0 < t.getD g 0 := by
  rw [← Table.contains_iff, Table.contains, Table.getD]
  cases hg : t.get? g with
  | none => simp
  | some n => simpa using h.get? hg

omit [DecidableEq κ] [Grouped κ] in
/-- The groups that do not occur in a table count nothing in it. -/
theorem total_values_eq {t : Table String Nat} (h : t.Keyed (fun _ n => 0 < n))
    (hsub : t.keys ⊆ c.groups) :
    FieldTrace.total t.values = FieldTrace.total (c.groups.map (fun g => t.getD g 0)) := by
  rw [h.total_values]
  refine total_map_of_subset h.nodup nodup_groups hsub (fun g _ hg => ?_)
  rw [mem_keys_iff_pos h] at hg
  exact Nat.eq_zero_of_not_pos hg

namespace Accounted

variable (h : Accounted pending c log)
include h

/-- There is a row for each group in which something was asked. -/
theorem mem_groups : g ∈ c.groups ↔ 0 < callsIn g log := by
  rw [mem_groups_iff, mem_keys_iff_pos h.hits, mem_keys_iff_pos h.misses, ← h.calls g]
  exact Nat.add_pos_iff_pos_or_pos.symm

/-- There are as many entries as keys for which some call returned. -/
theorem entries_eq : (c.counts g).entries = (answeredIn g log).length := by
  have hkeys : ((c.entries.filter (fun e => group e.1 = g)).map Sigma.fst).Nodup :=
    h.nodup.sublist (List.filter_sublist.map _)
  have hmem : ∀ k, k ∈ log.filterMap (Event.keyIn? g) ↔
      k ∈ (c.entries.filter (fun e => group e.1 = g)).map Sigma.fst := by
    intro k
    have hanswered := @mem_answeredIn _ _ _ _ g k log
    rw [answeredIn, mem_distinct] at hanswered
    have hentry : (∃ v, .returned k v ∈ log) ↔ k ∈ c.entries.map Sigma.fst := by
      rw [← isSome_find?_iff, Option.isSome_iff_exists]
      exact exists_congr (fun v => (h.returned k v).symm)
    rw [hanswered, hentry, List.mem_map, List.mem_map]
    constructor
    · rintro ⟨hg, e, he, rfl⟩
      exact ⟨e, List.mem_filter.2 ⟨he, decide_eq_true hg⟩, rfl⟩
    · rintro ⟨e, he, rfl⟩
      obtain ⟨he, hg⟩ := List.mem_filter.1 he
      exact ⟨of_decide_eq_true hg, e, he, rfl⟩
  rw [answeredIn, length_distinct hkeys hmem, List.length_map]
  rfl

/-- The group of an entry has a row, since the entry has its miss. -/
theorem group_mem_groups {e : (k : κ) × Value k} (he : e ∈ c.entries) : group e.1 ∈ c.groups := by
  have hmissed := h.missed (group e.1)
  have hentry : 0 < (c.entries.filter (fun e' => group e'.1 = group e.1)).length :=
    List.length_pos_of_mem (List.mem_filter.2 ⟨he, decide_eq_true rfl⟩)
  refine mem_groups_iff.2 (.inr ((mem_keys_iff_pos h.misses).2 ?_))
  exact Nat.lt_of_lt_of_le hentry (Nat.le_trans (Nat.le_add_right _ _) hmissed)

/-- All counts together are the sum of the rows. -/
theorem total_eq : c.total = CacheCounts.sum (c.groups.map c.counts) := by
  have hhits : FieldTrace.total c.hits.values =
      FieldTrace.total ((c.groups.map c.counts).map CacheCounts.hits) := by
    rw [total_values_eq h.hits (fun g hg => mem_groups_iff.2 (.inl hg)), List.map_map]
    rfl
  have hmisses : FieldTrace.total c.misses.values =
      FieldTrace.total ((c.groups.map c.counts).map CacheCounts.misses) := by
    rw [total_values_eq h.misses (fun g hg => mem_groups_iff.2 (.inr hg)), List.map_map]
    rfl
  have hentries : c.size =
      FieldTrace.total ((c.groups.map c.counts).map CacheCounts.entries) := by
    have hperm := perm_flatMap_filter (fun e : (k : κ) × Value k => group e.1) nodup_groups
      (fun e he => h.group_mem_groups he)
    rw [size, ← hperm.length_eq, length_flatMap_eq_total, List.map_map]
    rfl
  rw [Cache.total, CacheCounts.sum, hhits, hmisses, hentries]

/-- No row gives way where no group has the name of the last row. -/
theorem stats_eq (hname : callsIn "total" log = 0) :
    c.stats = c.groups.map (fun g => (g, c.counts g)) ++
      [("total", CacheCounts.sum (c.groups.map c.counts))] := by
  have hrows : c.groups.filter (fun g => g ≠ "total") = c.groups := by
    refine List.filter_eq_self.2 (fun g hg => decide_eq_true ?_)
    rintro rfl
    rw [h.mem_groups, hname] at hg
    exact Nat.lt_irrefl 0 hg
  rw [stats, hrows, h.total_eq]

end Accounted

/-- Let values be asked for in any order, by factories too, which may raise exceptions, and let the
cache be cleared in between; and let nobody ask for a value that is being computed. Then since the
cache was last cleared, the hits and misses of a group are the calls for it, its entries are the keys
for which some call returned and no more than its misses, and each entry holds, and each call
returns, the first value that a factory returned for the key. The last row is the sum of the others,
one for each group, unless one of them has its name. A factory that raises an exception leaves all
entries as they were for whose keys no factory returned a value meanwhile. -/
theorem cache_accounts_exactly (part : Part σ κ Value) (s : σ) (requests : List (Request part ε))
    (horderly : Orderly (part.after s requests).log) :
    let c := part.view (part.after s requests).state
    let log := (part.after s requests).log
    (∀ g, (c.counts g).hits + (c.counts g).misses = callsIn g log ∧
      (c.counts g).entries = (answeredIn g log).length ∧
      (c.counts g).entries ≤ (c.counts g).misses) ∧
    (∀ k, c.find? k = firstValue? k log ∧
      ∀ v, .returned k v ∈ log → firstValue? k log = some v) ∧
    (callsIn "total" log = 0 →
      c.stats = c.groups.map (fun g => (g, c.counts g)) ++
        [("total", CacheCounts.sum (c.groups.map c.counts))]) ∧
    c.groups.Nodup ∧ (∀ g, g ∈ c.groups ↔ 0 < callsIn g log) ∧
    ∀ (pending : List κ) (k : κ) (f : Factory part ε k) (w w' : Watched σ κ Value) (e : ε),
      (call part pending k (f.run part (k :: pending))).run w = (.error e, w') →
      ∃ events, w'.log = w.log ++ events ∧
        ∀ j, (∀ v, .computed j v ∉ events) →
          (part.view w'.state).find? j = (part.view w.state).find? j := by
  intro c log
  have h : Accounted [] c log := accounted_after s requests horderly
  refine ⟨fun g => ⟨h.calls g, h.entries_eq, h.missed g⟩,
    fun k => ⟨h.keeps k, fun v hv => ?_⟩, h.stats_eq, nodup_groups, fun g => h.mem_groups, ?_⟩
  · rw [← h.keeps k, h.returned k v]
    exact hv
  · intro pending k f w w' e hcall
    have hleads : Leads part pending w _ := leads_call (fun w => f.leads (k :: pending) w) w
    rw [hcall] at hleads
    exact hleads.frame

end Cache

/-- The cache of a run, as `Analysis.cached` reaches it. -/
def Run.cachePart : Cache.Part Run CacheKey CacheKey.Answer where
  view := Run.cache
  update f r := { r with cache := f r.cache }
  view_update _ _ := rfl

/-! The references to a field are asked for, which takes the callers of a method. -/

namespace Lookups

def method : MethodId := ⟨"Till", "pay", []⟩

abbrev callers : CacheKey := .callers method

abbrev references : CacheKey := .references ⟨"Order", "amount"⟩

def found : List Reference := [⟨some method, ⟨"Till.java", 4⟩⟩]

/-- Ask for the callers, with a question to the index if they are not known, and go on. -/
def withCallers
    (next : Except Failure (List Reference) → Cache.Factory Run.cachePart Failure references) :
    Cache.Factory Run.cachePart Failure references :=
  .ask callers (.proceed (fun r => { r with indexCalls := r.indexCalls + 1 }) (fun _ => rfl)
    (fun _ => .finish (.ok found))) next

def failing : Cache.Factory Run.cachePart Failure references :=
  withCallers (fun _ => .finish (.error .analysisCancelled))

/-- The cache is cleared after a call. -/
def opening : List (Cache.Request Run.cachePart Failure) :=
  [.ask callers (.finish (.ok [])), .clear]

/-- A failure and two calls that return. -/
def requests : List (Cache.Request Run.cachePart Failure) :=
  opening ++ [.ask references failing, .ask references (withCallers (fun result => .finish result)),
    .ask references (.finish (.ok []))]

def started : Cache.Watched Run CacheKey CacheKey.Answer := Run.cachePart.after {} opening

def failed : Cache.Watched Run CacheKey CacheKey.Answer :=
  Cache.Request.serve started (.ask references failing)

end Lookups

open Lookups Cache in
/-- The failure keeps the callers and nothing else, so that the second call finds them and the third
one what the second has computed. -/
theorem cache_accounts_exactly_lookups :
    Orderly (Run.cachePart.after {} requests).log ∧
      callsIn "total" (Run.cachePart.after {} requests).log = 0 ∧
      (Run.cachePart.after {} requests).state.cache.stats =
        [("callers", ⟨1, 1, 1⟩), ("references", ⟨1, 2, 1⟩), ("total", ⟨2, 3, 2⟩)] ∧
      (Run.cachePart.after {} requests).state.cache.find? references = some found ∧
      (call Run.cachePart [] references (failing.run Run.cachePart [references])).run started =
        (.error .analysisCancelled, failed) ∧
      failed.state.cache.find? references = started.state.cache.find? references := by
  have horderly : Orderly (Run.cachePart.after {} requests).log := by decide +kernel
  have hname : callsIn "total" (Run.cachePart.after {} requests).log = 0 := by decide +kernel
  obtain ⟨-, hvalues, hstats, -, -, hraises⟩ :=
    cache_accounts_exactly Run.cachePart {} requests horderly
  have hfails : (call Run.cachePart [] references (failing.run Run.cachePart [references])).run
      started = (.error .analysisCancelled, failed) := rfl
  refine ⟨horderly, hname, (hstats hname).trans (by decide +kernel),
    (hvalues references).1.trans (by decide +kernel), hfails, ?_⟩
  obtain ⟨events, hlog, hkept⟩ := hraises [] references failing started failed _ hfails
  have hnone : ∀ e ∈ failed.log, (e.valueFor? references).isNone = true := by decide +kernel
  refine hkept references (fun v hv => ?_)
  have hv' := hnone (.computed references v) (hlog ▸ List.mem_append_right _ hv)
  simp [Event.valueFor?] at hv'

end FieldTrace
