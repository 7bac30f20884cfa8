import FieldTrace.Proofs.Declarations
import FieldTrace.Proofs.Lineage
import Mathlib.Data.List.Perm.Subperm
import Mathlib.Data.Nat.Find
import Mathlib.Data.String.Basic
import Mathlib.Logic.Relation

/-! # Subtyping

A type is a subtype of all that chains of declared supertypes lead to (`TypeTable.Extends`). The
levels of the search hold what is at the same distance from the type (`Layered`), and a shortest
chain passes each declared type at most once, so that the number of types bounds the search. So the
supertypes of a type are listed by their distance from it (`Index.Precedes`), whatever cycles the
declarations have. -/

namespace FieldTrace

open Syntax

/-! ### Distances in a graph -/

/-- The least number of steps in which the second node is reached from the first. -/
structure Distance (next : String → List String) (m n : String) (k : Nat) : Prop where
  reached : ReachedIn next k m n
  least : ∀ j, ReachedIn next j m n → k ≤ j

section distances

variable {next : String → List String} {m n : String} {j k : Nat}

theorem ReachedIn.exists_last (h : ReachedIn next (k + 1) m n) :
    ∃ p, ReachedIn next k m p ∧ n ∈ next p := by
  induction k generalizing m with
  | zero =>
    cases h with
    | step hfirst hrest =>
      cases hrest
      exact ⟨m, .start, hfirst⟩
  | succ k ih =>
    cases h with
    | step hfirst hrest =>
      obtain ⟨p, hp, hlast⟩ := ih hrest
      exact ⟨p, .step hfirst hp, hlast⟩

theorem ReachedIn.exists_distance (h : ReachedIn next k m n) : ∃ j ≤ k, Distance next m n j := by
  classical
  have hreached : ∃ j, ReachedIn next j m n := ⟨k, h⟩
  exact ⟨Nat.find hreached, Nat.find_min' hreached h, Nat.find_spec hreached,
    fun _ hj => Nat.find_min' hreached hj⟩

namespace Distance

theorem eq (h : Distance next m n j) (h' : Distance next m n k) : j = k :=
  Nat.le_antisymm (h.least k h'.reached) (h'.least j h.reached)

/-- The last step of a shortest chain starts one step nearer. -/
theorem exists_last (h : Distance next m n (k + 1)) :
    ∃ p, Distance next m p k ∧ n ∈ next p := by
  obtain ⟨p, hp, hlast⟩ := h.reached.exists_last
  refine ⟨p, ⟨hp, fun j hj => ?_⟩, hlast⟩
  have hleast := h.least (j + 1) (hj.concat hlast)
  omega

/-- A shortest chain passes different nodes, all nearer than its end, each of which has a next
one. -/
theorem exists_passed {nodes : List String} (hnodes : ∀ m n, n ∈ next m → m ∈ nodes)
    (h : Distance next m n k) : ∃ ps : List String, ps.length = k ∧ ps.Nodup ∧
      ∀ p ∈ ps, p ∈ nodes ∧ ∃ j < k, Distance next m p j := by
  induction k generalizing n with
  | zero => exact ⟨[], rfl, .nil, by rintro p ⟨⟩⟩
  | succ k ih =>
    obtain ⟨p, hp, hlast⟩ := h.exists_last
    obtain ⟨ps, hlength, hnodup, hps⟩ := ih hp
    have hnew : p ∉ ps := by
      intro hmem
      obtain ⟨-, j, hj, hdistance⟩ := hps p hmem
      have heq := hp.eq hdistance
      omega
    refine ⟨p :: ps, by rw [List.length_cons, hlength], List.nodup_cons.2 ⟨hnew, hnodup⟩, ?_⟩
    intro q hq
    obtain rfl | hq := List.mem_cons.1 hq
    · exact ⟨hnodes _ _ hlast, k, by omega, hp⟩
    · obtain ⟨hmem, j, hj, hdistance⟩ := hps q hq
      exact ⟨hmem, j, by omega, hdistance⟩

theorem le_length {nodes : List String} (hnodes : ∀ m n, n ∈ next m → m ∈ nodes)
    (h : Distance next m n k) : k ≤ nodes.length := by
  obtain ⟨ps, rfl, hnodup, hps⟩ := h.exists_passed hnodes
  exact (hnodup.subperm (fun p hp => (hps p hp).1)).length_le

end Distance

/-- One step from what is at a distance leads to the next distance, unless there is a shorter
way. -/
theorem distance_succ_iff : Distance next m n (k + 1) ↔
    (∃ p, Distance next m p k ∧ n ∈ next p) ∧ ¬ ∃ j ≤ k, ReachedIn next j m n := by
  constructor
  · intro h
    refine ⟨h.exists_last, ?_⟩
    rintro ⟨j, hj, hreached⟩
    have hleast := h.least j hreached
    omega
  · rintro ⟨⟨p, hp, hlast⟩, hnear⟩
    refine ⟨hp.reached.concat hlast, fun j hj => ?_⟩
    by_contra hlt
    exact hnear ⟨j, by omega, hj⟩

end distances

/-! ### Levels by distance -/

/-- Lists of the nodes at a distance from the start, at the next distance, and so on. -/
inductive Layered (next : String → List String) (start : String) : Nat → List (List String) → Prop
  where
  | nil {k : Nat} : Layered next start k []
  | cons {k : Nat} {level : List String} {rest : List (List String)} (hnodup : level.Nodup)
      (hlevel : ∀ n, n ∈ level ↔ Distance next start n k)
      (hrest : Layered next start (k + 1) rest) : Layered next start k (level :: rest)

section layers

variable {next : String → List String} {start : String} {k bound : Nat}
  {ls : List (List String)} {seen frontier : List String}

/-- If all nodes up to a distance have been seen, the levels hold those at the following ones. -/
theorem layered_levels (hseen : ∀ n, n ∈ seen ↔ ∃ j ≤ k, ReachedIn next j start n)
    (hfrontier : ∀ n, n ∈ frontier ↔ Distance next start n k) :
    Layered next start (k + 1) (levels next bound seen frontier) := by
  induction bound generalizing k seen frontier with
  | zero => exact .nil
  | succ bound ih =>
    rw [levels]
    split
    · exact .nil
    · have hfresh : ∀ n, n ∈ distinct ((frontier.flatMap next).filter (fun n => !seen.contains n)) ↔
          Distance next start n (k + 1) := by
        intro n
        rw [mem_distinct, distance_succ_iff, ← hseen]
        simp [hfrontier]
      refine .cons (nodup_distinct _) hfresh (ih (fun n => ?_) hfresh)
      rw [List.mem_append, hseen, hfresh]
      constructor
      · rintro (⟨j, hj, hreached⟩ | hdistance)
        · exact ⟨j, by omega, hreached⟩
        · exact ⟨k + 1, Nat.le_refl _, hdistance.reached⟩
      · rintro ⟨j, hj, hreached⟩
        obtain ⟨i, hi, hdistance⟩ := hreached.exists_distance
        by_cases hik : i ≤ k
        · exact .inl ⟨i, hik, hdistance.reached⟩
        · obtain rfl : i = k + 1 := by omega
          exact .inr hdistance

theorem layered_levelsFrom : Layered next start 1 (levelsFrom next bound start) := by
  have hzero : ∀ n, Distance next start n 0 ↔ n = start := by
    intro n
    constructor
    · intro h
      cases h.reached
      rfl
    · rintro rfl
      exact ⟨.start, fun j _ => Nat.zero_le j⟩
  refine layered_levels (fun n => ?_) (fun n => ?_)
  · rw [List.mem_singleton, ← hzero]
    constructor
    · exact fun h => ⟨0, Nat.le_refl 0, h.reached⟩
    · rintro ⟨j, hj, hreached⟩
      obtain rfl : j = 0 := by omega
      exact ⟨hreached, fun i _ => Nat.zero_le i⟩
  · rw [List.mem_singleton, hzero]

namespace Layered

theorem map_perm {f : List String → List String} (hf : ∀ l, (f l).Perm l)
    (h : Layered next start k ls) : Layered next start k (ls.map f) := by
  induction h with
  | nil => exact .nil
  | cons hnodup hlevel _ ih =>
    exact .cons ((hf _).nodup_iff.2 hnodup) (fun n => (hf _).mem_iff.trans (hlevel n)) ih

theorem nodup (h : Layered next start k ls) : ∀ l ∈ ls, l.Nodup := by
  induction h with
  | nil => rintro l ⟨⟩
  | cons hnodup _ _ ih => exact List.forall_mem_cons.2 ⟨hnodup, ih⟩

theorem exists_distance (h : Layered next start k ls) {n : String} (hn : n ∈ ls.flatten) :
    ∃ j ≥ k, Distance next start n j := by
  induction h with
  | nil => cases hn
  | cons _ hlevel _ ih =>
    rw [List.flatten_cons, List.mem_append] at hn
    obtain hn | hn := hn
    · exact ⟨_, Nat.le_refl _, (hlevel n).1 hn⟩
    · obtain ⟨j, hj, hdistance⟩ := ih hn
      exact ⟨j, by omega, hdistance⟩

/-- Put together, layers in order are ordered by distance first. -/
theorem pairwise_flatten {R : String → String → Prop} (h : Layered next start k ls)
    (hls : ∀ l ∈ ls, l.Pairwise R) :
    ls.flatten.Pairwise (fun a b => ∃ i j, Distance next start a i ∧ Distance next start b j ∧
      (i < j ∨ i = j ∧ R a b)) := by
  induction h with
  | nil => exact .nil
  | @cons k level rest _ hlevel hrest ih =>
    obtain ⟨hfirst, hls⟩ := List.forall_mem_cons.1 hls
    rw [List.flatten_cons, List.pairwise_append]
    refine ⟨?_, ih hls, ?_⟩
    · refine hfirst.imp_of_mem (fun {a b} ha hb hab => ?_)
      exact ⟨k, k, (hlevel a).1 ha, (hlevel b).1 hb, .inr ⟨rfl, hab⟩⟩
    · intro a ha b hb
      obtain ⟨j, hj, hdistance⟩ := hrest.exists_distance hb
      exact ⟨k, j, (hlevel a).1 ha, hdistance, .inl (by omega)⟩

end Layered

end layers

/-! ### Sorting by a strict order -/

section sorting

variable {α : Type} {lt : α → α → Bool}

theorem pairwise_insertSorted (htrans : ∀ a b c, lt a b = true → lt b c = true → lt a c = true)
    (htotal : ∀ a b, a ≠ b → lt a b = true ∨ lt b a = true) {a : α} {as : List α} (hnew : a ∉ as)
    (has : as.Pairwise (fun b c => lt b c = true)) :
    (insertSorted lt a as).Pairwise (fun b c => lt b c = true) := by
  induction as with
  | nil => exact List.pairwise_singleton _ _
  | cons b bs ih =>
    have hne : a ≠ b := fun heq => hnew (heq ▸ List.mem_cons_self)
    have hnew : a ∉ bs := fun hmem => hnew (List.mem_cons_of_mem b hmem)
    obtain ⟨hb, hbs⟩ := List.pairwise_cons.1 has
    rw [insertSorted]
    split
    next hlt =>
      refine List.pairwise_cons.2 ⟨?_, has⟩
      intro c hc
      obtain rfl | hc := List.mem_cons.1 hc
      · exact hlt
      · exact htrans a b c hlt (hb c hc)
    next hlt =>
      refine List.pairwise_cons.2 ⟨?_, ih hnew hbs⟩
      intro c hc
      obtain rfl | hc := List.mem_cons.1 ((insertSorted_perm lt a bs).mem_iff.1 hc)
      · exact (htotal c b hne).resolve_left hlt
      · exact hb c hc

/-- Elements that are put into a sorted list, all different, leave it sorted. -/
theorem pairwise_foldl_insertSorted
    (htrans : ∀ a b c, lt a b = true → lt b c = true → lt a c = true)
    (htotal : ∀ a b, a ≠ b → lt a b = true ∨ lt b a = true) {as sorted : List α}
    (hnodup : (sorted ++ as).Nodup) (hsorted : sorted.Pairwise (fun a b => lt a b = true)) :
    (as.foldl (fun sorted a => insertSorted lt a sorted) sorted).Pairwise
      (fun a b => lt a b = true) := by
  induction as generalizing sorted with
  | nil => exact hsorted
  | cons a as ih =>
    have hperm : (insertSorted lt a sorted ++ as).Perm (sorted ++ a :: as) :=
      ((insertSorted_perm lt a sorted).append_right as).trans List.perm_middle.symm
    have hnew : a ∉ sorted := fun hmem =>
      (List.nodup_append.1 hnodup).2.2 a hmem a List.mem_cons_self rfl
    exact ih (hperm.nodup_iff.2 hnodup) (pairwise_insertSorted htrans htotal hnew hsorted)

/-- Different elements are put in strictly ascending order. -/
theorem pairwise_stableSort (htrans : ∀ a b c, lt a b = true → lt b c = true → lt a c = true)
    (htotal : ∀ a b, a ≠ b → lt a b = true ∨ lt b a = true) {as : List α} (has : as.Nodup) :
    (stableSort lt as).Pairwise (fun a b => lt a b = true) :=
  pairwise_foldl_insertSorted htrans htotal has .nil

end sorting

theorem lexLt_iff_lt (as bs : List Char) :
    lexLt (fun a b => decide (a.toNat < b.toNat)) as bs = true ↔ as < bs := by
  induction as generalizing bs with
  | nil => cases bs <;> simp [lexLt]
  | cons a as ih =>
    cases bs with
    | nil => simp [lexLt]
    | cons b bs =>
      have hchar : a.toNat < b.toNat ↔ a < b := Iff.rfl
      rw [lexLt, List.cons_lt_cons_iff]
      by_cases hab : a = b
      · simp [hab, ih]
      · simp [hab, hchar]

/-- The order of texts is that of their characters. -/
theorem textLt_iff_lt {s t : String} : textLt s t = true ↔ s < t := by
  rw [String.lt_iff_toList_lt]
  exact lexLt_iff_lt _ _

/-! ### Chains of declared supertypes -/

namespace ReachedIn

variable {next next' : String → List String} {m n : String} {k : Nat}

theorem mono (hnext : ∀ m n, n ∈ next m → n ∈ next' m) (h : ReachedIn next k m n) :
    ReachedIn next' k m n := by
  induction h with
  | start => exact .start
  | step hfirst _ ih => exact .step (hnext _ _ hfirst) ih

/-- Steps that stay where they are can be left out. -/
theorem without_loops (hnext : ∀ m n, n ∈ next m → n = m ∨ n ∈ next' m)
    (h : ReachedIn next k m n) : ∃ j ≤ k, ReachedIn next' j m n := by
  induction h with
  | start => exact ⟨0, Nat.le_refl 0, .start⟩
  | step hfirst _ ih =>
    obtain ⟨j, hj, hreached⟩ := ih
    obtain rfl | hfirst := hnext _ _ hfirst
    · exact ⟨j, by omega, hreached⟩
    · exact ⟨j + 1, by omega, .step hfirst hreached⟩

end ReachedIn

namespace TypeTable

section

variable (types : TypeTable)

/-- The supertypes that a type declares; a name that is not declared has none. -/
def declaredSupertypes (name : String) : List String :=
  match types.get? name with
  | some d => d.supertypes
  | none => []

/-- The first type declares the second as a supertype. -/
def Extends (name ancestor : String) : Prop := ancestor ∈ types.declaredSupertypes name

end

variable {types : TypeTable} {a b c name ancestor : String} {k : Nat}

theorem mem_directSupertypes_iff :
    ancestor ∈ types.directSupertypes name ↔ types.Extends name ancestor ∧ ancestor ≠ name := by
  unfold directSupertypes Extends declaredSupertypes
  cases types.get? name with
  | none => simp
  | some d => simp

theorem reachedIn_declared (h : ReachedIn types.directSupertypes k a b) :
    ReachedIn types.declaredSupertypes k a b :=
  h.mono (fun _ _ hstep => (mem_directSupertypes_iff.1 hstep).1)

theorem reachedIn_direct (h : ReachedIn types.declaredSupertypes k a b) :
    ∃ j ≤ k, ReachedIn types.directSupertypes j a b := by
  refine h.without_loops (fun m n hstep => ?_)
  by_cases heq : n = m
  · exact .inl heq
  · exact .inr (mem_directSupertypes_iff.2 ⟨hstep, heq⟩)

/-- A type that names itself as its supertype is no nearer or farther for it. -/
theorem distance_declared (h : Distance types.directSupertypes a b k) :
    Distance types.declaredSupertypes a b k where
  reached := reachedIn_declared h.reached
  least j hj := by
    obtain ⟨i, hi, hreached⟩ := reachedIn_direct hj
    exact Nat.le_trans (h.least i hreached) hi

theorem reflTransGen_extends_iff : Relation.ReflTransGen types.Extends a b ↔
    ∃ k, ReachedIn types.declaredSupertypes k a b := by
  constructor
  · intro h
    induction h with
    | refl => exact ⟨0, .start⟩
    | tail _ hlast ih =>
      obtain ⟨k, hreached⟩ := ih
      exact ⟨k + 1, hreached.concat hlast⟩
  · rintro ⟨k, hreached⟩
    induction hreached with
    | start => exact .refl
    | step hfirst _ ih => exact .head hfirst ih

/-- The supertypes of a type are all others that chains of declared supertypes lead to. -/
theorem mem_supertypesOf_iff_chain : b ∈ types.supertypesOf a ↔
    b ≠ a ∧ Relation.ReflTransGen types.Extends a b := by
  rw [mem_supertypesOf_iff, reflTransGen_extends_iff]
  refine and_congr_right (fun _ => ⟨?_, ?_⟩)
  · rintro ⟨k, -, hreached⟩
    exact ⟨k, reachedIn_declared hreached⟩
  · rintro ⟨k, hreached⟩
    obtain ⟨j, -, hdirect⟩ := reachedIn_direct hreached
    obtain ⟨i, -, hdistance⟩ := hdirect.exists_distance
    have hkeys : i ≤ types.keys.length :=
      hdistance.le_length (fun _ _ => mem_keys_of_mem_directSupertypes)
    have hsize : types.keys.length = types.size := List.length_map _
    exact ⟨i, by omega, hdistance.reached⟩

theorem isSubtype_iff_chain :
    types.isSubtype a b = true ↔ Relation.ReflTransGen types.Extends a b := by
  rw [isSubtype, Bool.or_eq_true, decide_eq_true_eq, List.contains_iff_mem,
    mem_supertypesOf_iff_chain]
  constructor
  · rintro (rfl | ⟨-, hchain⟩)
    · exact .refl
    · exact hchain
  · intro hchain
    by_cases hab : a = b
    · exact .inl hab
    · exact .inr ⟨Ne.symm hab, hchain⟩

/-! ### The order of supertypes -/

theorem registeredBefore_iff : types.registeredBefore a b = true ↔
    types.keys.idxOf a < types.keys.idxOf b ∨
      types.keys.idxOf a = types.keys.idxOf b ∧ a < b := by
  rw [registeredBefore, Bool.or_eq_true, Bool.and_eq_true, decide_eq_true_eq, beq_iff_eq,
    textLt_iff_lt]

theorem registeredBefore_trans (hab : types.registeredBefore a b = true)
    (hbc : types.registeredBefore b c = true) : types.registeredBefore a c = true := by
  rw [registeredBefore_iff] at hab hbc ⊢
  obtain hab | ⟨hab, hlt⟩ := hab
  · left
    omega
  · obtain hbc | ⟨hbc, hlt'⟩ := hbc
    · left
      omega
    · exact .inr ⟨hab.trans hbc, hlt.trans hlt'⟩

theorem registeredBefore_total (hne : a ≠ b) :
    types.registeredBefore a b = true ∨ types.registeredBefore b a = true := by
  rw [registeredBefore_iff, registeredBefore_iff]
  obtain hlt | heq | hgt := Nat.lt_trichotomy (types.keys.idxOf a) (types.keys.idxOf b)
  · exact .inl (.inl hlt)
  · exact (lt_or_gt_of_ne hne).imp (fun hlt => .inr ⟨heq, hlt⟩) (fun hgt => .inr ⟨heq.symm, hgt⟩)
  · exact .inr (.inl hgt)

/-- The supertypes are sorted by distance, then by registration, then by name. -/
theorem pairwise_supertypesOf : (types.supertypesOf a).Pairwise (fun b c => ∃ i j,
    Distance types.declaredSupertypes a b i ∧ Distance types.declaredSupertypes a c j ∧
      (i < j ∨ i = j ∧ types.registeredBefore b c = true)) := by
  have hlayers : Layered types.directSupertypes a 1
      (levelsFrom types.directSupertypes (types.size + 1) a) := layered_levelsFrom
  have hsorted := hlayers.map_perm (stableSort_perm types.registeredBefore)
  have hpairs := hsorted.pairwise_flatten (R := fun b c => types.registeredBefore b c = true) (by
    intro l hl
    obtain ⟨level, hlevel, rfl⟩ := List.mem_map.1 hl
    refine pairwise_stableSort ?_ ?_ (hlayers.nodup level hlevel)
    · exact fun _ _ _ => registeredBefore_trans
    · exact fun _ _ => registeredBefore_total)
  refine hpairs.imp ?_
  rintro b c ⟨i, j, hb, hc, horder⟩
  exact ⟨i, j, distance_declared hb, distance_declared hc, horder⟩

end TypeTable

namespace Index

/-- The place of a type in the order of registration; all other names come last. -/
def rank (idx : Index) (name : String) : Nat := idx.registry.types.keys.idxOf name

/-- Of two supertypes of a type the first is to be listed before the second: the shortest chain of
declared supertypes that leads to it is shorter, or as long and it is registered before the other, or
neither is registered and its name comes first. -/
def Precedes (idx : Index) (type a b : String) : Prop :=
  ∃ i j, Distance idx.types.declaredSupertypes type a i ∧
    Distance idx.types.declaredSupertypes type b j ∧
    (i < j ∨ i = j ∧ (idx.rank a < idx.rank b ∨ idx.rank a = idx.rank b ∧ a < b))

theorem Precedes.ne {idx : Index} {type a b : String} (h : idx.Precedes type a b) : a ≠ b := by
  rintro rfl
  obtain ⟨i, j, hi, hj, horder⟩ := h
  have hij : i = j := hi.eq hj
  obtain hlt | ⟨-, hlt | ⟨-, hlt⟩⟩ := horder
  · omega
  · omega
  · exact lt_irrefl a hlt

/-- A type is a subtype of itself and of all that chains of declared supertypes lead to. All but
itself are listed as its supertypes, each once, sorted by the length of the shortest chain, then by
registration, then by name; and the subtypes of a type are those that list it. This holds also
where chains lead in cycles or to names that are not declared. -/
theorem subtyping_eq_closure (files : List SourceFile) (skipped : List String) :
    let idx := Index.ofFiles files skipped
    (∀ a b, idx.types.isSubtype a b = true ↔ Relation.ReflTransGen idx.types.Extends a b) ∧
      (∀ a, (∀ b, b ∈ idx.types.supertypesOf a ↔
          b ≠ a ∧ Relation.ReflTransGen idx.types.Extends a b) ∧
        (idx.types.supertypesOf a).Nodup ∧
        (idx.types.supertypesOf a).Pairwise (idx.Precedes a)) ∧
      ∀ a b, b ∈ idx.types.supertypesOf a ↔ a ∈ idx.types.subtypesOf b := by
  intro idx
  have hkeys : idx.types.keys = idx.registry.types.keys := keys_types_ofFiles files skipped
  have hsorted : ∀ a, (idx.types.supertypesOf a).Pairwise (idx.Precedes a) := by
    intro a
    refine TypeTable.pairwise_supertypesOf.imp ?_
    rintro b c ⟨i, j, hb, hc, horder⟩
    rw [TypeTable.registeredBefore_iff, hkeys] at horder
    exact ⟨i, j, hb, hc, horder⟩
  refine ⟨fun a b => TypeTable.isSubtype_iff_chain, fun a => ?_,
    fun a b => TypeTable.mem_subtypesOf_iff.symm⟩
  exact ⟨fun b => TypeTable.mem_supertypesOf_iff_chain, (hsorted a).imp Precedes.ne, hsorted a⟩

end Index

end FieldTrace
