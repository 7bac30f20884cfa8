import FieldTrace.Index.Inheritance

/-! # Supertypes and subtypes

The levels around a node hold what is reached from it in a bounded number of steps
(`mem_levelsFrom_iff`). Supertypes and subtypes are found by climbing and by descending the same
steps with the same bound, so that a type is listed among the subtypes of another exactly if that
one is listed among its supertypes. -/

namespace FieldTrace

/-! ### Levels of a graph -/

/-- The second node is reached from the first in so many steps. -/
inductive ReachedIn (next : String → List String) : Nat → String → String → Prop where
  | start {n : String} : ReachedIn next 0 n n
  | step {k : Nat} {m n p : String} (h : n ∈ next m) (hp : ReachedIn next k n p) :
      ReachedIn next (k + 1) m p

namespace ReachedIn

variable {next prev : String → List String} {k : Nat} {m n p : String}

theorem concat (h : ReachedIn next k m n) (hp : p ∈ next n) : ReachedIn next (k + 1) m p := by
  induction h with
  | start => exact .step hp .start
  | step hn _ ih => exact .step hn (ih hp)

/-- What is reached along some steps is left again against them. -/
theorem reverse (hprev : ∀ m n, n ∈ next m → m ∈ prev n) (h : ReachedIn next k m n) :
    ReachedIn prev k n m := by
  induction h with
  | start => exact .start
  | step hn _ ih => exact ih.concat (hprev _ _ hn)

/-- Nothing outside is reached from within if no step leads out. -/
theorem mem_of_closed {seen : List String} (hclosed : ∀ m ∈ seen, next m ⊆ seen)
    (h : ReachedIn next k m n) (hm : m ∈ seen) : n ∈ seen := by
  induction h with
  | start => exact hm
  | step hn _ ih => exact ih (hclosed _ hm hn)

end ReachedIn

section levels

variable {next : String → List String} {bound : Nat} {seen frontier : List String} {n : String}

theorem notMem_of_mem_levels (h : n ∈ (levels next bound seen frontier).flatten) : n ∉ seen := by
  induction bound generalizing seen frontier with
  | zero => cases h
  | succ bound ih =>
    rw [levels] at h
    split at h
    · cases h
    · rw [List.flatten_cons, List.mem_append, mem_distinct, List.mem_filter] at h
      obtain ⟨-, hnew⟩ | hlater := h
      · simpa using hnew
      · exact fun hseen => ih hlater (List.mem_append_left _ hseen)

/-- If only the frontier leads out of what has been seen, the levels add what can be reached from
there. -/
theorem mem_append_levels_iff (hfrontier : frontier ⊆ seen)
    (hclosed : ∀ m ∈ seen, m ∉ frontier → next m ⊆ seen) :
    n ∈ seen ++ (levels next bound seen frontier).flatten ↔
      ∃ m ∈ seen, ∃ k ≤ bound, ReachedIn next k m n := by
  induction bound generalizing seen frontier with
  | zero =>
    rw [levels, List.flatten_nil, List.append_nil]
    constructor
    · exact fun hn => ⟨n, hn, 0, Nat.le_refl 0, .start⟩
    · rintro ⟨m, hm, k, hk, hreached⟩
      obtain rfl : k = 0 := by omega
      cases hreached
      exact hm
  | succ bound ih =>
    let fresh := distinct ((frontier.flatMap next).filter (fun n => !seen.contains n))
    have hfresh : ∀ m, m ∈ fresh ↔ (∃ p ∈ frontier, m ∈ next p) ∧ m ∉ seen := by
      intro m
      simp [fresh, mem_distinct]
    -- one step from what has been seen leads to it or to the next level
    have hnext : ∀ m ∈ seen, next m ⊆ seen ++ fresh := by
      intro m hm p hp
      by_cases hseen : p ∈ seen
      · exact List.mem_append_left _ hseen
      · by_cases hm' : m ∈ frontier
        · exact List.mem_append_right _ ((hfresh p).2 ⟨⟨m, hm', hp⟩, hseen⟩)
        · exact absurd (hclosed m hm hm' hp) hseen
    have hstep : (levels next (bound + 1) seen frontier).flatten =
        fresh ++ (levels next bound (seen ++ fresh) fresh).flatten ∨
        fresh = [] ∧ (levels next (bound + 1) seen frontier).flatten = [] := by
      rw [levels]
      split
      next hempty => exact .inr ⟨List.isEmpty_iff.1 hempty, rfl⟩
      next => exact .inl List.flatten_cons
    obtain hlevels | ⟨hnone, hlevels⟩ := hstep
    · rw [hlevels, ← List.append_assoc, ih (List.subset_append_right _ _)]
      · constructor
        · rintro ⟨m, hm, k, hk, hreached⟩
          obtain hm | hm := List.mem_append.1 hm
          · exact ⟨m, hm, k, by omega, hreached⟩
          · obtain ⟨⟨p, hp, hpm⟩, -⟩ := (hfresh m).1 hm
            exact ⟨p, hfrontier hp, k + 1, by omega, .step hpm hreached⟩
        · rintro ⟨m, hm, k, hk, hreached⟩
          cases hreached with
          | start => exact ⟨n, List.mem_append_left _ hm, 0, by omega, .start⟩
          | @step k _ p _ hp hreached => exact ⟨p, hnext m hm hp, k, by omega, hreached⟩
      · intro m hm hm' p hp
        obtain hm | hm := List.mem_append.1 hm
        · exact hnext m hm hp
        · exact absurd hm hm'
    · rw [hlevels, List.append_nil]
      constructor
      · exact fun hn => ⟨n, hn, 0, Nat.zero_le _, .start⟩
      · rintro ⟨m, hm, k, -, hreached⟩
        rw [hnone, List.append_nil] at hnext
        exact hreached.mem_of_closed hnext hm

/-- The levels around a node hold the other nodes that are reached in so many steps. -/
theorem mem_levelsFrom_iff {start : String} :
    n ∈ (levelsFrom next bound start).flatten ↔
      n ≠ start ∧ ∃ k ≤ bound, ReachedIn next k start n := by
  have hlevels : n ∈ [start] ++ (levels next bound [start] [start]).flatten ↔ _ :=
    mem_append_levels_iff (List.Subset.refl [start]) (fun m hm hm' => absurd hm hm')
  constructor
  · intro hn
    obtain ⟨m, hm, hreached⟩ := hlevels.1 (List.mem_append_right _ hn)
    rw [List.mem_singleton.1 hm] at hreached
    exact ⟨fun heq => notMem_of_mem_levels hn (List.mem_singleton.2 heq), hreached⟩
  · rintro ⟨hne, hreached⟩
    obtain hn | hn := List.mem_append.1 (hlevels.2 ⟨start, List.mem_singleton_self _, hreached⟩)
    · exact absurd (List.mem_singleton.1 hn) hne
    · exact hn

end levels

/-! ### Climbing and descending -/

namespace TypeTable

variable {types : TypeTable} {name ancestor : String}

theorem mem_supertypesOf : ancestor ∈ types.supertypesOf name ↔
    ancestor ∈ (levelsFrom types.directSupertypes (types.size + 1) name).flatten := by
  rw [supertypesOf, List.mem_flatten, List.mem_flatten]
  constructor
  · rintro ⟨_, hsorted, ha⟩
    obtain ⟨level, hlevel, rfl⟩ := List.mem_map.1 hsorted
    exact ⟨level, hlevel, mem_stableSort.1 ha⟩
  · rintro ⟨level, hlevel, ha⟩
    exact ⟨_, List.mem_map_of_mem hlevel, mem_stableSort.2 ha⟩

theorem mem_supertypesOf_iff : ancestor ∈ types.supertypesOf name ↔
    ancestor ≠ name ∧ ∃ k ≤ types.size + 1, ReachedIn types.directSupertypes k name ancestor :=
  mem_supertypesOf.trans mem_levelsFrom_iff

/-- Only declared types have supertypes. -/
theorem mem_keys_of_mem_directSupertypes (h : ancestor ∈ types.directSupertypes name) :
    name ∈ types.keys := by
  rw [← Table.contains_iff, Table.contains]
  unfold directSupertypes at h
  split at h
  next hd => rw [hd]; rfl
  next => cases h

theorem mem_directSubtypes_iff :
    name ∈ types.directSubtypes ancestor ↔ ancestor ∈ types.directSupertypes name := by
  rw [directSubtypes, List.mem_filter, List.contains_iff_mem]
  exact and_iff_right_of_imp mem_keys_of_mem_directSupertypes

/-- A type is below another exactly if that one is above it. -/
theorem mem_subtypesOf_iff :
    name ∈ types.subtypesOf ancestor ↔ ancestor ∈ types.supertypesOf name := by
  have hreverse : ∀ k, ReachedIn types.directSubtypes k ancestor name ↔
      ReachedIn types.directSupertypes k name ancestor := fun k =>
    ⟨fun h => h.reverse (fun _ _ => mem_directSubtypes_iff.1),
      fun h => h.reverse (fun _ _ => mem_directSubtypes_iff.2)⟩
  simp only [subtypesOf, List.mem_filter, List.contains_iff_mem, mem_levelsFrom_iff, hreverse,
    mem_supertypesOf_iff, ne_comm (a := ancestor)]
  refine and_iff_right_of_imp ?_
  rintro ⟨hne, k, -, hreached⟩
  cases hreached with
  | start => exact absurd rfl hne
  | step hfirst _ => exact mem_keys_of_mem_directSupertypes hfirst

end TypeTable

end FieldTrace
