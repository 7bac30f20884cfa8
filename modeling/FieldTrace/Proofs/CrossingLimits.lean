import FieldTrace.Hierarchy.Expansion
import FieldTrace.Proofs.Counting
import FieldTrace.Proofs.KeyedTables
import Mathlib.Data.List.Induction

/-! # Crossings within a limit

One pass over some crossings sets the first one of each pair of types apart from the repeats
(`setApart_eq`). The first ones come before the repeats, so that a limit takes away no pair as long
as there is a repeat to take away. -/

namespace FieldTrace

namespace Crossing

/-- The types on the two sides of the site. -/
def pair (c : Crossing) : String × String := (c.site.source, c.site.target)

/-- Is a crossing, given with its place in the list, the first one of its pair? -/
def opensPair (cs : List Crossing) (p : Crossing × Nat) : Bool :=
  !((cs.take p.2).map pair).contains p.1.pair

/-- The crossings that are the first of their pair, or those that are not, in their order. -/
def select (first : Bool) (cs : List Crossing) : List Crossing :=
  (cs.zipIdx.filter (fun p => opensPair cs p == first)).map Prod.fst

/-- The crossings before which there is none of their pair. -/
def firsts (cs : List Crossing) : List Crossing := select true cs

/-- The crossings before which there is one of their pair. -/
def repeats (cs : List Crossing) : List Crossing := select false cs

variable (cs : List Crossing) (c : Crossing)

/-! ### One more crossing -/

/-- What comes later makes no difference to a place. -/
theorem opensPair_append {p : Crossing × Nat} (hp : p ∈ cs.zipIdx) :
    opensPair (cs ++ [c]) p = opensPair cs p := by
  have hlt : p.2 < cs.length := by
    have := List.mem_zipIdx hp
    omega
  unfold opensPair
  rw [List.take_append_of_le_length (Nat.le_of_lt hlt)]

theorem opensPair_last : opensPair (cs ++ [c]) (c, cs.length) = !(cs.map pair).contains c.pair := by
  unfold opensPair
  rw [List.take_left]

theorem select_append (first : Bool) : select first (cs ++ [c]) =
    select first cs ++ if (!(cs.map pair).contains c.pair) = first then [c] else [] := by
  have hold : cs.zipIdx.filter (fun p => opensPair (cs ++ [c]) p == first) =
      cs.zipIdx.filter (fun p => opensPair cs p == first) :=
    List.filter_congr (fun p hp => by rw [opensPair_append cs c hp])
  have hlast : [c].zipIdx cs.length = [(c, cs.length)] := rfl
  unfold select
  rw [List.zipIdx_append, Nat.zero_add, List.filter_append, hold, hlast, List.map_append,
    List.filter_cons, opensPair_last]
  by_cases hc : (!(cs.map pair).contains c.pair) = first
  · rw [if_pos hc, if_pos (beq_iff_eq.2 hc)]
    rfl
  · rw [if_neg hc, if_neg (mt beq_iff_eq.1 hc)]
    rfl

theorem firsts_append_of_mem (h : c.pair ∈ cs.map pair) : firsts (cs ++ [c]) = firsts cs := by
  rw [firsts, select_append, if_neg (by simpa using h), List.append_nil, firsts]

theorem firsts_append_of_notMem (h : c.pair ∉ cs.map pair) :
    firsts (cs ++ [c]) = firsts cs ++ [c] := by
  rw [firsts, select_append, if_pos (by simpa using h), firsts]

theorem repeats_append_of_mem (h : c.pair ∈ cs.map pair) :
    repeats (cs ++ [c]) = repeats cs ++ [c] := by
  rw [repeats, select_append, if_pos (by simpa using h), repeats]

theorem repeats_append_of_notMem (h : c.pair ∉ cs.map pair) :
    repeats (cs ++ [c]) = repeats cs := by
  rw [repeats, select_append, if_neg (by simpa using h), List.append_nil, repeats]

/-! ### First crossings and repeats -/

/-- Each pair has one first crossing, in the order of first occurrence. -/
theorem map_pair_firsts : (firsts cs).map pair = distinct (cs.map pair) := by
  induction cs using List.reverseRecOn with
  | nil => rfl
  | append_singleton cs c ih =>
    rw [List.map_append, List.map_singleton, distinct_append_singleton]
    by_cases h : c.pair ∈ cs.map pair
    · rw [firsts_append_of_mem cs c h, addNew_of_mem (mem_distinct.2 h), ih]
    · rw [firsts_append_of_notMem cs c h, addNew_of_notMem (mt mem_distinct.1 h), ← ih,
        List.map_append, List.map_singleton]

/-- Every crossing is a first one or a repeat. -/
theorem firsts_append_repeats_perm : (firsts cs ++ repeats cs).Perm cs := by
  induction cs using List.reverseRecOn with
  | nil => exact .refl _
  | append_singleton cs c ih =>
    by_cases h : c.pair ∈ cs.map pair
    · rw [firsts_append_of_mem cs c h, repeats_append_of_mem cs c h, ← List.append_assoc]
      exact ih.append_right [c]
    · rw [firsts_append_of_notMem cs c h, repeats_append_of_notMem cs c h, List.append_assoc]
      -- the new crossing moves behind the repeats
      refine (List.Perm.append_left _ List.perm_append_comm).trans ?_
      rw [← List.append_assoc]
      exact ih.append_right [c]

theorem select_sublist (first : Bool) : (select first cs).Sublist cs := by
  have hplaces : cs.zipIdx.map Prod.fst = cs := List.zipIdx_map_fst 0 cs
  have hsub := (List.filter_sublist (p := fun p => opensPair cs p == first) (l := cs.zipIdx)).map
    Prod.fst
  rwa [hplaces] at hsub

end Crossing

open Crossing

/-! ### The pass over the crossings -/

/-- One step of the pass: a crossing is filed under its pair, or put with the repeats. -/
def setApart (s : Table (String × String) Crossing × List Crossing) (c : Crossing) :
    Table (String × String) Crossing × List Crossing :=
  if s.1.contains c.pair then (s.1, s.2 ++ [c]) else (s.1.insert c.pair c, s.2)

theorem limitCrossings_eq_setApart (limit : Nat) (cs : List Crossing) :
    limitCrossings limit cs =
      ((cs.foldl setApart (.empty, [])).1.values ++ (cs.foldl setApart (.empty, [])).2).take limit :=
  rfl

/-- After the pass the first crossings are filed under their pairs, and the repeats are listed. -/
theorem setApart_eq (cs : List Crossing) :
    cs.foldl setApart (.empty, []) =
      (⟨(firsts cs).map (fun c => (c.pair, c))⟩, repeats cs) := by
  induction cs using List.reverseRecOn with
  | nil => rfl
  | append_singleton cs c ih =>
    rw [List.foldl_append, ih, List.foldl_cons, List.foldl_nil, setApart]
    have hkeys : (Table.mk ((firsts cs).map (fun c => (c.pair, c)))).keys =
        distinct (cs.map pair) := by
      rw [← map_pair_firsts, Table.keys, List.map_map]
      rfl
    by_cases h : c.pair ∈ cs.map pair
    · rw [if_pos ((Table.contains_iff _ _).2 (hkeys ▸ mem_distinct.2 h)),
        firsts_append_of_mem cs c h, repeats_append_of_mem cs c h]
    · have hnew : c.pair ∉ (Table.mk ((firsts cs).map (fun c => (c.pair, c)))).keys := by
        rw [hkeys, mem_distinct]
        exact h
      have hentries := Table.entries_alter_of_notMem (f := fun _ => c) hnew
      rw [if_neg (mt (Table.contains_iff _ _).1 hnew), firsts_append_of_notMem cs c h,
        repeats_append_of_notMem cs c h, List.map_append, Table.insert]
      exact congrArg (fun es => (Table.mk es, repeats cs)) hentries

theorem limitCrossings_eq (limit : Nat) (cs : List Crossing) :
    limitCrossings limit cs = (firsts cs ++ repeats cs).take limit := by
  have hvalues : (Table.mk ((firsts cs).map (fun c => (c.pair, c)))).values = firsts cs := by
    rw [Table.values, List.map_map]
    exact List.map_id _
  rw [limitCrossings_eq_setApart, setApart_eq, hvalues]

/-! ### What is within the limit -/

/-- Where repeats come last, a limit leaves as many different elements as it allows. -/
theorem length_distinct_take {α : Type} [DecidableEq α] {ds rs : List α} (hds : ds.Nodup)
    (hrs : rs ⊆ ds) (limit : Nat) :
    (distinct ((ds ++ rs).take limit)).length = min limit ds.length := by
  rw [← List.length_take]
  refine length_distinct (hds.sublist (List.take_sublist limit ds)) (fun a => ?_)
  rw [List.take_append, List.mem_append]
  by_cases hlimit : limit ≤ ds.length
  · have hnone : rs.take (limit - ds.length) = [] := by
      rw [Nat.sub_eq_zero_of_le hlimit, List.take_zero]
    simp [hnone]
  · have hall : ds.take limit = ds := List.take_of_length_le (Nat.le_of_not_le hlimit)
    rw [hall]
    exact ⟨fun ha => ha.elim id (fun ha => hrs (List.mem_of_mem_take ha)), .inl⟩

theorem length_distinct_pairs (limit : Nat) (cs : List Crossing) :
    (distinct ((limitCrossings limit cs).map pair)).length =
      min limit (distinct (cs.map pair)).length := by
  have hrepeats : (repeats cs).map pair ⊆ distinct (cs.map pair) := by
    intro p hp
    exact mem_distinct.2 ((select_sublist cs false).map pair |>.subset hp)
  rw [limitCrossings_eq, List.map_take, List.map_append, map_pair_firsts]
  exact length_distinct_take (nodup_distinct _) hrepeats limit

/-- For whatever crossings and limit: what is within the limit are as many of the crossings as it
allows, none more often than it is given, with as many different pairs of types as it allows. The
first crossing of each pair comes before all repeats, and both are in their order. A limit that is
not below the number of crossings leaves all of them. -/
theorem limitCrossings_keeps_pairs (limit : Nat) (cs : List Crossing) :
    (limitCrossings limit cs).length = min limit cs.length ∧
    (∀ c, (limitCrossings limit cs).count c ≤ cs.count c) ∧
    (distinct ((limitCrossings limit cs).map pair)).length =
      min limit (distinct (cs.map pair)).length ∧
    limitCrossings limit cs = (firsts cs ++ repeats cs).take limit ∧
    (firsts cs).Sublist cs ∧ (repeats cs).Sublist cs ∧
    (cs.length ≤ limit → (limitCrossings limit cs).Perm cs) := by
  have hperm := firsts_append_repeats_perm cs
  refine ⟨?_, fun c => ?_, length_distinct_pairs limit cs, limitCrossings_eq limit cs,
    select_sublist cs true, select_sublist cs false, fun hlimit => ?_⟩
  · rw [limitCrossings_eq, List.length_take, hperm.length_eq]
  · rw [limitCrossings_eq, ← hperm.count_eq c]
    exact (List.take_sublist _ _).count_le c
  · rw [limitCrossings_eq, List.take_of_length_le (by rw [hperm.length_eq]; exact hlimit)]
    exact hperm

/-! Two sites for one pair of types and one for another. -/

namespace Parcels

def crossing (line : Int) (target : String) : Crossing where
  site := ⟨⟨"Depot", "send", []⟩, "Parcel", target, ⟨"Depot.java", line⟩⟩
  relation := ⟨.direct, ⟨"Parcel", "weight"⟩, ⟨target, "weight"⟩⟩
  continueAt := ⟨target, "weight"⟩
  nextType := target

def found : List Crossing := [crossing 3 "Load", crossing 4 "Load", crossing 7 "Label"]

end Parcels

/-- With a limit of two it is the repeat that goes; with room for all it is put last. -/
theorem limitCrossings_keeps_pairs_parcels :
    (distinct ((limitCrossings 2 Parcels.found).map pair)).length = 2 ∧
      limitCrossings 2 Parcels.found = [Parcels.crossing 3 "Load", Parcels.crossing 7 "Label"] ∧
      Parcels.found.length ≤ 3 ∧ (limitCrossings 3 Parcels.found).Perm Parcels.found := by
  obtain ⟨-, -, hpairs, heq, -⟩ := limitCrossings_keeps_pairs 2 Parcels.found
  have hroom : Parcels.found.length ≤ 3 := by decide
  refine ⟨?_, ?_, hroom, (limitCrossings_keeps_pairs 3 Parcels.found).2.2.2.2.2.2 hroom⟩
  · rw [hpairs]
    decide
  · rw [heq]
    decide

end FieldTrace
