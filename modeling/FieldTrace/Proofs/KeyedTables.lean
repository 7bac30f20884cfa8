import FieldTrace.Distinct
import FieldTrace.Table

/-! # Tables whose entries know their keys

A table that is filled by writes has each key once. Where every value that is written is related to
its key, so is every value that is found (`Table.Keyed`). -/

namespace FieldTrace

namespace Table

variable {κ α β : Type} [DecidableEq κ] {R : κ → α → Prop} {t : Table κ α}

/-- No key is listed twice, and each value is related to its key. -/
structure Keyed (R : κ → α → Prop) (t : Table κ α) : Prop where
  nodup : t.keys.Nodup
  entry : ∀ e ∈ t.entries, R e.1 e.2

omit [DecidableEq κ] in
theorem keyed_empty : (empty : Table κ α).Keyed R := ⟨.nil, by simp [empty]⟩

theorem mem_entries_of_getFrom {k : κ} {v : α} {es : List (κ × α)} (h : getFrom k es = some v) :
    (k, v) ∈ es := by
  induction es with
  | nil => cases h
  | cons e es ih =>
    rw [getFrom] at h
    split at h
    next he =>
      cases h
      rw [← he]
      exact List.mem_cons_self
    next => exact List.mem_cons_of_mem _ (ih h)

theorem mem_alterIn {k : κ} {f : Option α → α} {es : List (κ × α)} {e : κ × α}
    (h : e ∈ alterIn k f es) : e ∈ es ∨ e = (k, f (getFrom k es)) := by
  induction es with
  | nil => exact .inr (List.mem_singleton.1 h)
  | cons e₀ es ih =>
    rw [alterIn] at h
    by_cases he : e₀.1 = k
    · rw [if_pos he] at h
      rw [getFrom, if_pos he]
      obtain rfl | hmem := List.mem_cons.1 h
      · exact .inr rfl
      · exact .inl (List.mem_cons_of_mem _ hmem)
    · rw [if_neg he] at h
      rw [getFrom, if_neg he]
      obtain rfl | hmem := List.mem_cons.1 h
      · exact .inl List.mem_cons_self
      · exact (ih hmem).imp (List.mem_cons_of_mem _) id

theorem mem_values_insert {k : κ} {v w : α} (h : w ∈ (t.insert k v).values) :
    w ∈ t.values ∨ w = v := by
  obtain ⟨e, he, rfl⟩ := List.mem_map.1 h
  obtain he | rfl := mem_alterIn he
  · exact .inl (List.mem_map_of_mem he)
  · exact .inr rfl

namespace Keyed

omit [DecidableEq κ] in
theorem mono {S : κ → α → Prop} (h : t.Keyed R) (hRS : ∀ k v, R k v → S k v) : t.Keyed S :=
  ⟨h.nodup, fun e he => hRS _ _ (h.entry e he)⟩

theorem alter (h : t.Keyed R) (k : κ) {f : Option α → α}
    (hf : ∀ old, (∀ v, old = some v → R k v) → R k (f old)) : (t.alter k f).Keyed R where
  nodup := t.nodup_keys_alter k f h.nodup
  entry e he := by
    obtain hmem | rfl := mem_alterIn he
    · exact h.entry e hmem
    · exact hf _ (fun v hv => h.entry (k, v) (mem_entries_of_getFrom hv))

theorem insert (h : t.Keyed R) {k : κ} {v : α} (hv : R k v) : (t.insert k v).Keyed R :=
  h.alter k (fun _ _ => hv)

theorem insertNew (h : t.Keyed R) {k : κ} {v : α} (hv : R k v) : (t.insertNew k v).Keyed R := by
  refine h.alter k (fun old hold => ?_)
  cases old with
  | none => exact hv
  | some w => exact hold w rfl

/-- Adding to the list at a key. -/
theorem push {t : Table κ (List α)} {A : κ → Prop} {B : α → Prop}
    (h : t.Keyed (fun k vs => A k ∧ ∀ v ∈ vs, B v)) {k : κ} {v : α} (hk : A k) (hv : B v) :
    (t.push k v).Keyed (fun k vs => A k ∧ ∀ v ∈ vs, B v) := by
  refine h.alter k (fun old hold => ⟨hk, fun w hw => ?_⟩)
  obtain hw | hw := List.mem_append.1 hw
  · cases old with
    | none => cases hw
    | some vs => exact (hold vs rfl).2 w hw
  · rw [List.mem_singleton.1 hw]
    exact hv

theorem foldl_insertNew {key : β → κ} {value : β → α} {xs : List β}
    (hxs : ∀ x ∈ xs, R (key x) (value x)) (h : t.Keyed R) :
    (xs.foldl (fun t x => t.insertNew (key x) (value x)) t).Keyed R := by
  induction xs generalizing t with
  | nil => exact h
  | cons x xs ih =>
    obtain ⟨hx, hxs⟩ := List.forall_mem_cons.1 hxs
    exact ih hxs (h.insertNew hx)

omit [DecidableEq κ] in
theorem mapValues {S : κ → β → Prop} {f : α → β} (h : t.Keyed R)
    (hf : ∀ k v, R k v → S k (f v)) : (t.mapValues f).Keyed S where
  nodup := by
    have hkeys : (t.mapValues f).keys = t.keys := by simp [keys, Table.mapValues]
    rw [hkeys]
    exact h.nodup
  entry e he := by
    obtain ⟨e', he', rfl⟩ := List.mem_map.1 he
    exact hf _ _ (h.entry e' he')

theorem get? (h : t.Keyed R) {k : κ} {v : α} (hv : t.get? k = some v) : R k v :=
  h.entry (k, v) (mem_entries_of_getFrom hv)

/-- An entry is what its key looks up. -/
theorem get?_of_mem (h : t.Keyed R) {e : κ × α} (he : e ∈ t.entries) : t.get? e.1 = some e.2 := by
  obtain ⟨es⟩ := t
  have hnodup := h.nodup
  clear h
  induction es with
  | nil => cases he
  | cons e₀ es ih =>
    obtain ⟨hnew, hnodup⟩ := List.nodup_cons.1 hnodup
    rw [Table.get?, getFrom]
    obtain rfl | he := List.mem_cons.1 he
    · exact if_pos rfl
    · have hne : e₀.1 ≠ e.1 := fun heq => hnew (heq ▸ List.mem_map_of_mem he)
      rw [if_neg hne]
      exact ih he hnodup

/-- What a key looks up does not depend on the order of the entries. -/
theorem get?_eq_of_perm {t' : Table κ α} (h : t.Keyed R) (h' : t'.Keyed R)
    (hperm : t.entries.Perm t'.entries) (k : κ) : t.get? k = t'.get? k := by
  refine Option.ext (fun v => ⟨fun hv => ?_, fun hv => ?_⟩)
  · exact h'.get?_of_mem (hperm.mem_iff.1 (mem_entries_of_getFrom hv))
  · exact h.get?_of_mem (hperm.mem_iff.2 (mem_entries_of_getFrom hv))

omit [DecidableEq κ] in
theorem map_values {f : α → κ} (h : t.Keyed (fun k v => f v = k)) : t.values.map f = t.keys := by
  rw [values, List.map_map]
  exact List.map_congr_left (fun e he => h.entry e he)

/-- Where values know their keys, a key looks up the first value that has it. -/
theorem find?_values {f : α → κ} (h : t.Keyed (fun k v => f v = k)) (k : κ) :
    t.values.find? (fun v => f v = k) = t.get? k := by
  obtain ⟨es⟩ := t
  have hentry : ∀ e ∈ es, f e.2 = e.1 := h.entry
  clear h
  show (es.map Prod.snd).find? (fun v => f v = k) = getFrom k es
  induction es with
  | nil => rfl
  | cons e es ih =>
    obtain ⟨he, hes⟩ := List.forall_mem_cons.1 hentry
    rw [List.map_cons, List.find?_cons, getFrom, he, ih hes]
    by_cases hk : e.1 = k <;> simp [hk]

/-- A value is listed exactly if its key looks it up. -/
theorem mem_values_iff {f : α → κ} (h : t.Keyed (fun k v => f v = k)) {v : α} :
    v ∈ t.values ↔ t.get? (f v) = some v := by
  constructor
  · intro hv
    obtain ⟨e, he, rfl⟩ := List.mem_map.1 hv
    rw [h.entry e he]
    exact h.get?_of_mem he
  · exact mem_values_of_get?

end Keyed

theorem mem_keys_insertNew {k k' : κ} {v : α} :
    k' ∈ (t.insertNew k v).keys ↔ k' ∈ t.keys ∨ k' = k := by
  rw [Table.insertNew, keys_alter]
  split
  next hk => exact ⟨.inl, fun h => h.elim id (fun heq => heq ▸ hk)⟩
  next => rw [List.mem_append, List.mem_singleton]

theorem mem_keys_foldl_insertNew {key : β → κ} {value : β → α} {k : κ} (xs : List β)
    (t : Table κ α) :
    k ∈ (xs.foldl (fun t x => t.insertNew (key x) (value x)) t).keys ↔
      k ∈ t.keys ∨ ∃ x ∈ xs, k = key x := by
  induction xs generalizing t with
  | nil => simp
  | cons x xs ih =>
    rw [List.foldl_cons, ih, mem_keys_insertNew, or_assoc]
    simp

/-- Keys are listed in the order in which they are first written to. -/
theorem keys_foldl_insertNew {key : β → κ} {value : β → α} (xs : List β) {ks : List κ}
    {t : Table κ α} (ht : t.keys = distinct ks) :
    (xs.foldl (fun t x => t.insertNew (key x) (value x)) t).keys =
      distinct (ks ++ xs.map key) := by
  induction xs generalizing t ks with
  | nil => rw [List.map_nil, List.append_nil, List.foldl_nil, ht]
  | cons x xs ih =>
    have hkeys : (t.insertNew (key x) (value x)).keys = distinct (ks ++ [key x]) := by
      rw [Table.insertNew, keys_alter, ht, distinct_append_singleton]
      split
      next h => exact (addNew_of_mem h).symm
      next h => exact (addNew_of_notMem h).symm
    rw [List.foldl_cons, ih hkeys, List.append_assoc, List.singleton_append, List.map_cons]

/-- Of several values that are written to a key the first counts. -/
theorem get?_foldl_insertNew {key : β → κ} {value : β → α} {k : κ} (xs : List β) (t : Table κ α) :
    (xs.foldl (fun t x => t.insertNew (key x) (value x)) t).get? k =
      (t.get? k).or ((xs.find? (fun x => key x = k)).map value) := by
  induction xs generalizing t with
  | nil => simp
  | cons x xs ih =>
    rw [List.foldl_cons, ih, Table.insertNew, get?_alter, List.find?_cons]
    by_cases h : key x = k
    · rw [if_pos h, decide_eq_true h, h]
      cases t.get? k <;> rfl
    · rw [if_neg h, decide_eq_false h]

/-! ### Writing to new keys -/

theorem prefix_alterIn_getD (k : κ) (v : α) (es : List (κ × α)) :
    es <+: alterIn k (fun old => old.getD v) es := by
  induction es with
  | nil => exact List.nil_prefix
  | cons e es ih =>
    rw [alterIn]
    split
    next he =>
      rw [← he]
      exact List.prefix_refl _
    next => exact (List.prefix_cons_inj e).2 ih

/-- What is written only to new keys comes after the entries that are there. -/
theorem entries_prefix_foldl_insertNew {key : β → κ} {value : β → α} (xs : List β)
    (t : Table κ α) :
    t.entries <+: (xs.foldl (fun t x => t.insertNew (key x) (value x)) t).entries := by
  induction xs generalizing t with
  | nil => exact List.prefix_refl _
  | cons x xs ih => exact (prefix_alterIn_getD (key x) (value x) t.entries).trans (ih _)

theorem alterIn_of_notMem {k : κ} {f : Option α → α} {es : List (κ × α)}
    (h : k ∉ es.map Prod.fst) : alterIn k f es = es ++ [(k, f none)] := by
  induction es with
  | nil => rfl
  | cons e es ih =>
    have he : e.1 ≠ k := fun he => h (he ▸ List.mem_cons_self)
    rw [alterIn, if_neg he, ih (fun hes => h (List.mem_cons_of_mem _ hes))]
    rfl

theorem entries_alter_of_notMem {k : κ} {f : Option α → α} (h : k ∉ t.keys) :
    (t.alter k f).entries = t.entries ++ [(k, f none)] :=
  alterIn_of_notMem h

/-- Where no key is written twice, all that is written is kept in order. -/
theorem entries_foldl_insertNew {key : β → κ} {value : β → α} (xs : List β)
    (h : (t.keys ++ xs.map key).Nodup) :
    (xs.foldl (fun t x => t.insertNew (key x) (value x)) t).entries =
      t.entries ++ xs.map (fun x => (key x, value x)) := by
  induction xs generalizing t with
  | nil => exact (List.append_nil _).symm
  | cons x xs ih =>
    have hx : key x ∉ t.keys := fun hmem =>
      (List.nodup_append.1 h).2.2 _ hmem _ List.mem_cons_self rfl
    have hentries : (t.insertNew (key x) (value x)).entries = t.entries ++ [(key x, value x)] :=
      entries_alter_of_notMem hx
    have hkeys : (t.insertNew (key x) (value x)).keys = t.keys ++ [key x] := by
      rw [keys, hentries, List.map_append]
      rfl
    rw [List.foldl_cons, ih (by rw [hkeys, List.append_assoc]; exact h), hentries,
      List.append_assoc]
    rfl

end Table

end FieldTrace
