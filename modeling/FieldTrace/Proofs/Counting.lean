import FieldTrace.Distinct
import FieldTrace.Total
import Mathlib.Data.List.Perm.Basic

/-! # Counting by keys

What is counted for each of some keys adds up to what there is in all, if every key is counted
once. -/

namespace FieldTrace

/-- Taking the elements of one key after the other loses, adds and repeats nothing. -/
theorem perm_flatMap_filter {α κ : Type} [DecidableEq κ] (key : α → κ) {keys : List κ}
    (hkeys : keys.Nodup) {xs : List α} (hxs : ∀ x ∈ xs, key x ∈ keys) :
    (keys.flatMap (fun k => xs.filter (fun x => key x = k))).Perm xs := by
  induction keys generalizing xs with
  | nil =>
    rw [List.eq_nil_iff_forall_not_mem.2 (fun x hx => List.not_mem_nil (hxs x hx))]
    exact .refl _
  | cons k keys ih =>
    obtain ⟨hk, hkeys⟩ := List.nodup_cons.1 hkeys
    let others := xs.filter (fun x => !decide (key x = k))
    have hothers : ∀ x ∈ others, key x ∈ keys := by
      intro x hx
      obtain ⟨hx, hne⟩ := List.mem_filter.1 hx
      refine (List.mem_cons.1 (hxs x hx)).resolve_left (fun heq => ?_)
      simp [heq] at hne
    -- the elements of the other keys are all among the others
    have hrest : ∀ k' ∈ keys, xs.filter (fun x => key x = k') =
        others.filter (fun x => key x = k') := by
      intro k' hk'
      rw [List.filter_filter]
      refine List.filter_congr (fun x _ => ?_)
      by_cases hx : key x = k'
      · have hne : k' ≠ k := fun heq => hk (heq ▸ hk')
        simp [hx, hne]
      · simp [hx]
    rw [List.flatMap_cons, List.flatMap_congr hrest]
    exact ((ih hkeys hothers).append_left _).trans (List.filter_append_perm _ _)

theorem length_distinct {α : Type} [DecidableEq α] {as ds : List α} (hds : ds.Nodup)
    (h : ∀ a, a ∈ as ↔ a ∈ ds) : (distinct as).length = ds.length :=
  ((List.perm_ext_iff_of_nodup (nodup_distinct as) hds).2
    (fun a => mem_distinct.trans (h a))).length_eq

theorem total_perm {as bs : List Nat} (h : as.Perm bs) : total as = total bs := by
  induction h with
  | nil => rfl
  | cons a _ ih => rw [total, total, ih]
  | swap a b cs =>
    simp only [total]
    omega
  | trans _ _ ih ih' => exact ih.trans ih'

theorem length_flatMap_eq_total {α β : Type} (f : α → List β) (as : List α) :
    (as.flatMap f).length = total (as.map (fun a => (f a).length)) := by
  induction as with
  | nil => rfl
  | cons a as ih => rw [List.flatMap_cons, List.length_append, ih, List.map_cons, total]

theorem total_eq_zero {ns : List Nat} (h : ∀ n ∈ ns, n = 0) : total ns = 0 := by
  induction ns with
  | nil => rfl
  | cons n ns ih =>
    obtain ⟨hn, hns⟩ := List.forall_mem_cons.1 h
    rw [total, hn, ih hns]

/-- Elements that count nothing may be left out of a sum. -/
theorem total_map_of_subset {α : Type} [DecidableEq α] {f : α → Nat} {as bs : List α}
    (has : as.Nodup) (hbs : bs.Nodup) (hsub : as ⊆ bs) (hzero : ∀ b ∈ bs, b ∉ as → f b = 0) :
    total (as.map f) = total (bs.map f) := by
  have hperm : bs.Perm (as ++ bs.filter (fun b => b ∉ as)) := by
    refine (List.perm_ext_iff_of_nodup hbs ?_).2 (fun b => ?_)
    · refine List.nodup_append.2 ⟨has, hbs.filter _, ?_⟩
      rintro a ha _ hb rfl
      exact of_decide_eq_true (List.mem_filter.1 hb).2 ha
    · rw [List.mem_append, List.mem_filter, decide_eq_true_eq]
      by_cases hb : b ∈ as
      · simp [hb, hsub hb]
      · simp [hb]
  have hnone : total ((bs.filter (fun b => b ∉ as)).map f) = 0 := by
    refine total_eq_zero (fun n hn => ?_)
    obtain ⟨b, hb, rfl⟩ := List.mem_map.1 hn
    obtain ⟨hb, hnew⟩ := List.mem_filter.1 hb
    exact hzero b hb (of_decide_eq_true hnew)
  rw [total_perm (hperm.map f), List.map_append, total_append, hnone, Nat.add_zero]

end FieldTrace
