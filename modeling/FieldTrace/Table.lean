/-! # Tables in insertion order

A `Table` maps keys to values and lists its entries in the order in which their keys were first
inserted. Writing to a key that is present keeps its place. -/

namespace FieldTrace

/-- A finite map that remembers the order of insertion. -/
structure Table (κ α : Type) where
  entries : List (κ × α)
  deriving Repr, DecidableEq

namespace Table

variable {κ α β : Type} [DecidableEq κ]

/-- The table without entries. -/
def empty : Table κ α := ⟨[]⟩

instance : EmptyCollection (Table κ α) := ⟨empty⟩
instance : Inhabited (Table κ α) := ⟨empty⟩

/-- The value of the first entry with the key. -/
def getFrom (k : κ) : List (κ × α) → Option α
  | [] => none
  | e :: es => if e.1 = k then some e.2 else getFrom k es

/-- Apply `f` to the value at the key, which starts as `none` and is then put last. -/
def alterIn (k : κ) (f : Option α → α) : List (κ × α) → List (κ × α)
  | [] => [(k, f none)]
  | e :: es => if e.1 = k then (k, f (some e.2)) :: es else e :: alterIn k f es

variable (t : Table κ α)

/-- The value at a key. -/
def get? (k : κ) : Option α := getFrom k t.entries

/-- The value at a key, or a default. -/
def getD (k : κ) (d : α) : α := (t.get? k).getD d

/-- Is the key present? -/
def contains (k : κ) : Bool := (t.get? k).isSome

/-- Replace the value at a key by `f` of it. -/
def alter (k : κ) (f : Option α → α) : Table κ α := ⟨alterIn k f t.entries⟩

/-- Write a value. -/
def insert (k : κ) (v : α) : Table κ α := t.alter k (fun _ => v)

/-- Write a value unless the key is present. -/
def insertNew (k : κ) (v : α) : Table κ α := t.alter k (fun old => old.getD v)

/-- The keys in order of insertion. -/
def keys : List κ := t.entries.map Prod.fst

/-- The values in order of insertion. -/
def values : List α := t.entries.map Prod.snd

/-- The number of keys. -/
def size : Nat := t.entries.length

/-- Change every value. -/
def mapValues (f : α → β) : Table κ β := ⟨t.entries.map (fun e => (e.1, f e.2))⟩

/-- The table of a list of entries; a later entry for a key replaces the value of an earlier one. -/
def ofList (es : List (κ × α)) : Table κ α := es.foldl (fun t e => t.insert e.1 e.2) empty

/-! ### Multi-valued tables -/

/-- Add a value at the end of the list at a key. -/
def push (t : Table κ (List α)) (k : κ) (v : α) : Table κ (List α) :=
  t.alter k (fun old => old.getD [] ++ [v])

/-! ### Lookups after writes -/

omit t in
theorem getFrom_alterIn (k k' : κ) (f : Option α → α) (es : List (κ × α)) :
    getFrom k' (alterIn k f es) = if k = k' then some (f (getFrom k es)) else getFrom k' es := by
  induction es with
  | nil => simp [alterIn, getFrom]
  | cons e es ih =>
    by_cases he : e.1 = k
    · by_cases hk : k = k' <;> simp [alterIn, getFrom, he, hk]
    · by_cases hk : k = k'
      · subst hk
        simp [alterIn, getFrom, he, ih]
      · simp [alterIn, getFrom, he, ih, hk]

theorem get?_alter (k k' : κ) (f : Option α → α) :
    (t.alter k f).get? k' = if k = k' then some (f (t.get? k)) else t.get? k' :=
  getFrom_alterIn k k' f t.entries

theorem getD_alter (k k' : κ) (f : Option α → α) (d : α) :
    (t.alter k f).getD k' d = if k = k' then f (t.get? k) else t.getD k' d := by
  rw [getD, get?_alter]
  split <;> rfl

theorem get?_insert (k k' : κ) (v : α) :
    (t.insert k v).get? k' = if k = k' then some v else t.get? k' :=
  t.get?_alter k k' _

@[simp] theorem get?_insert_self (k : κ) (v : α) : (t.insert k v).get? k = some v := by
  simp [get?_insert]

omit t in
@[simp] theorem get?_empty (k : κ) : (empty : Table κ α).get? k = none := rfl

omit t in
theorem keys_alterIn (k : κ) (f : Option α → α) (es : List (κ × α)) :
    (alterIn k f es).map Prod.fst =
      if k ∈ es.map Prod.fst then es.map Prod.fst else es.map Prod.fst ++ [k] := by
  induction es with
  | nil => simp [alterIn]
  | cons e es ih =>
    by_cases he : e.1 = k
    · simp [alterIn, he]
    · have he' : ¬ k = e.1 := fun h => he h.symm
      simp only [alterIn, he, if_false, List.map_cons, ih, List.mem_cons, he', false_or]
      split <;> simp

/-- A new key is put last; a key that is present keeps its place. -/
theorem keys_alter (k : κ) (f : Option α → α) :
    (t.alter k f).keys = if k ∈ t.keys then t.keys else t.keys ++ [k] :=
  keys_alterIn k f t.entries

theorem nodup_keys_alter (k : κ) (f : Option α → α) (h : t.keys.Nodup) :
    (t.alter k f).keys.Nodup := by
  rw [keys_alter]
  split
  · exact h
  · next hk =>
    rw [List.nodup_append]
    exact ⟨h, by simp, by intro a ha b hb; simp at hb; subst hb; exact fun e => hk (e ▸ ha)⟩

omit t in
theorem getFrom_isSome (k : κ) (es : List (κ × α)) :
    (getFrom k es).isSome = true ↔ k ∈ es.map Prod.fst := by
  induction es with
  | nil => simp [getFrom]
  | cons e es ih =>
    by_cases he : e.1 = k
    · simp [getFrom, he]
    · have he' : ¬ k = e.1 := fun h => he h.symm
      simp [getFrom, he, he', ih]

theorem contains_iff (k : κ) : t.contains k = true ↔ k ∈ t.keys :=
  getFrom_isSome k t.entries

omit t in
theorem mem_of_getFrom {k : κ} {v : α} {es : List (κ × α)} (h : getFrom k es = some v) :
    v ∈ es.map Prod.snd := by
  induction es with
  | nil => simp [getFrom] at h
  | cons e es ih =>
    rw [getFrom] at h
    split at h
    · cases h
      simp
    · exact List.mem_cons_of_mem _ (ih h)

omit t in
theorem mem_values_of_get? {t : Table κ α} {k : κ} {v : α} (h : t.get? k = some v) : v ∈ t.values :=
  mem_of_getFrom h

/-! ### Filing values by a key -/

/-- The table lists, at each key, the values of a list that have this key, in order. -/
def Files (t : Table κ (List α)) (key : α → κ) (xs : List α) : Prop :=
  ∀ k, t.getD k [] = xs.filter (fun x => key x = k)

omit t in
theorem files_empty (key : α → κ) : (empty : Table κ (List α)).Files key [] := fun _ => rfl

omit t in
theorem Files.push {t : Table κ (List α)} {key : α → κ} {xs : List α} (h : t.Files key xs) (x : α) :
    (t.push (key x) x).Files key (xs ++ [x]) := by
  intro k
  rw [Table.push, getD_alter, List.filter_append, List.filter_cons, List.filter_nil, ← h k]
  by_cases hk : key x = k
  · subst hk
    rw [if_pos rfl, decide_eq_true rfl]
    rfl
  · rw [if_neg hk, decide_eq_false hk]
    exact (List.append_nil _).symm

end Table

end FieldTrace
