/-! # Lists without repetition -/

namespace FieldTrace

variable {α : Type} [DecidableEq α]

/-- The elements of a list in order of first occurrence. -/
def distinct : List α → List α
  | [] => []
  | a :: as => a :: (distinct as).filter (fun b => !(b = a))

/-- Add an element at the end unless it is listed. -/
def addNew (as : List α) (a : α) : List α := if as.contains a then as else as ++ [a]

theorem mem_distinct {a : α} {as : List α} : a ∈ distinct as ↔ a ∈ as := by
  induction as with
  | nil => simp [distinct]
  | cons b bs ih =>
    by_cases h : a = b <;> simp [distinct, ih, h]

theorem nodup_distinct (as : List α) : (distinct as).Nodup := by
  induction as with
  | nil => simp [distinct]
  | cons b bs ih =>
    simp only [distinct, List.nodup_cons]
    exact ⟨by simp, ih.filter _⟩

theorem distinct_filter (p : α → Bool) (as : List α) :
    distinct (as.filter p) = (distinct as).filter p := by
  induction as with
  | nil => rfl
  | cons a as ih =>
    by_cases h : p a = true
    · simp [distinct, h, ih, List.filter_filter, Bool.and_comm]
    · -- the elements that pass the test differ from `a` anyway
      have hcongr : (distinct as).filter p =
          (distinct as).filter (fun b => p b && !decide (b = a)) := by
        apply List.filter_congr
        intro b _
        by_cases hb : b = a <;> simp [hb, h]
      simp [distinct, h, ih, List.filter_filter, hcongr]

/-- The elements of a second list that are not in the first come after those of the first. -/
theorem distinct_append (as bs : List α) :
    distinct (as ++ bs) = distinct as ++ (distinct bs).filter (fun b => !as.contains b) := by
  induction as with
  | nil => exact (List.filter_eq_self.mpr (by simp)).symm
  | cons a as ih =>
    have hcongr : (distinct bs).filter (fun b => !(a :: as).contains b) =
        (distinct bs).filter (fun b => !decide (b = a) && !as.contains b) := by
      apply List.filter_congr
      intro b _
      by_cases h : b = a <;> simp [h]
    simp only [List.cons_append, distinct, ih, List.filter_append, List.filter_filter, hcongr]

theorem distinct_append_singleton (as : List α) (a : α) :
    distinct (as ++ [a]) = addNew (distinct as) a := by
  rw [distinct_append, addNew]
  by_cases ha : a ∈ as <;> simp [distinct, mem_distinct, ha]

/-! ### Adding elements -/

theorem addNew_of_mem {a : α} {as : List α} (h : a ∈ as) : addNew as a = as :=
  if_pos (List.contains_iff_mem.2 h)

theorem addNew_of_notMem {a : α} {as : List α} (h : a ∉ as) : addNew as a = as ++ [a] :=
  if_neg (mt List.contains_iff_mem.1 h)

theorem mem_addNew {a b : α} {as : List α} : b ∈ addNew as a ↔ b ∈ as ∨ b = a := by
  unfold addNew
  split
  · next h =>
    have ha : a ∈ as := by simpa using h
    constructor
    · exact Or.inl
    · rintro (hb | rfl)
      · exact hb
      · exact ha
  · simp

theorem nodup_addNew {as : List α} (h : as.Nodup) (a : α) : (addNew as a).Nodup := by
  unfold addNew
  split
  · exact h
  · next ha =>
    have ha' : a ∉ as := by simpa using ha
    rw [List.nodup_append]
    refine ⟨h, by simp, ?_⟩
    rintro b hb c hc rfl
    rw [List.mem_singleton] at hc
    exact ha' (hc ▸ hb)

end FieldTrace
