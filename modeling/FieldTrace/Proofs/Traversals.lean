import FieldTrace.Proofs.Paths
import FieldTrace.Proofs.Walks
import FieldTrace.Terminal.TreeView
import Mathlib.Data.List.Infix

/-! # Walks and recursions

The walks over a tree take trees off a stack, which is written from its top, and put their children
on it. By recursion a node has a value from its own tree and the values of its children
(`Rose.recurse`). Taking the top off a stack amounts to walking over that whole tree and going on
with the rest, so each walk satisfies the equation of a recursion and is that recursion
(`Rose.eq_recurse`).

The place of a node are the child indices that lead to it. In the order of words, a place comes
before those below it and before those to the right, so that a walk from parents to children and
from left to right passes the places in this order (`Rose.Lists`). -/

namespace FieldTrace

namespace Rose

variable {α β : Type}

/-! ### Recursion -/

mutual

/-- What holds of a tree if it holds of all its children holds of every tree. -/
@[elab_as_elim]
theorem byChildren {motive : Rose α → Prop}
    (node : ∀ a cs, (∀ c ∈ cs, motive c) → motive (node a cs)) : ∀ t, motive t
  | .node a cs => node a cs (byChildren_forest node cs)

theorem byChildren_forest {motive : Rose α → Prop}
    (node : ∀ a cs, (∀ c ∈ cs, motive c) → motive (node a cs)) :
    ∀ ts : List (Rose α), ∀ t ∈ ts, motive t
  | [], _, h => absurd h List.not_mem_nil
  | t :: ts, u, h => by
    obtain heq | h := List.mem_cons.1 h
    · rw [heq]
      exact byChildren node t
    · exact byChildren_forest node ts u h

end

mutual

/-- A value by recursion: that of a node comes from its tree and the values of its children, in
their order. -/
def recurse (f : Rose α → List β → β) : Rose α → β
  | node a cs => f (node a cs) (recurseAll f cs)

/-- The values of some trees. -/
def recurseAll (f : Rose α → List β → β) : List (Rose α) → List β
  | [] => []
  | t :: ts => recurse f t :: recurseAll f ts

end

theorem recurseAll_eq_map (f : Rose α → List β → β) (ts : List (Rose α)) :
    recurseAll f ts = ts.map (recurse f) := by
  induction ts with
  | nil => rfl
  | cons t ts ih => rw [recurseAll, ih, List.map_cons]

theorem recurse_node (f : Rose α → List β → β) (a : α) (cs : List (Rose α)) :
    recurse f (node a cs) = f (node a cs) (cs.map (recurse f)) := by
  rw [recurse, recurseAll_eq_map]

/-- What satisfies the equation of a recursion is that recursion. -/
theorem eq_recurse {f : Rose α → List β → β} {g : Rose α → β}
    (h : ∀ a cs, g (node a cs) = f (node a cs) (cs.map g)) (t : Rose α) : g t = recurse f t := by
  induction t using byChildren with
  | node a cs ih => rw [h, recurse_node, List.map_congr_left ih]

/-- All subtrees: a tree comes before the subtrees of its children. -/
def preorder (t : Rose α) : List (Rose α) := recurse (fun s below => s :: below.flatten) t

/-- The paths to the leaves: a leaf is a path, and a path from another node goes on in a child. -/
def branches (t : Rose α) : List (List α) :=
  recurse (fun s below =>
    if s.isLeaf then [[s.label]] else below.flatten.map (fun p => s.label :: p)) t

/-- The levels below the root: none below a leaf, else one more than the most below a child. -/
def levelsBelow (t : Rose α) : Nat :=
  recurse (fun _ below => (below.max?.map (fun most => 1 + most)).getD 0) t

/-- The tree with each label replaced. -/
def mapLabels (f : α → β) (t : Rose α) : Rose β := recurse (fun s kids => node (f s.label) kids) t

theorem mapLabels_node (f : α → β) (a : α) (cs : List (Rose α)) :
    mapLabels f (node a cs) = node (f a) (cs.map (mapLabels f)) := recurse_node _ a cs

/-! ### Subtrees and paths -/

theorem subtrees_eq_preorder (t : Rose α) : t.subtrees = t.preorder :=
  eq_recurse (fun a cs => by rw [subtrees_node, List.flatMap_def]) t

theorem paths_eq_branches (t : Rose α) : t.paths = t.branches := by
  refine eq_recurse (fun a cs => ?_) t
  by_cases hcs : cs = []
  · subst hcs
    exact paths_leaf a
  · have hleaf : (node a cs).isLeaf = false := by simpa [isLeaf, children] using hcs
    rw [hleaf, if_neg Bool.false_ne_true, paths_node a hcs, List.flatMap_def, label]

/-! ### Heights -/

/-- The levels below a node with children are one more than the most below one of these. -/
theorem levelsBelow_node (a : α) {cs : List (Rose α)} (h : cs ≠ []) :
    (∃ c ∈ cs, (node a cs).levelsBelow = 1 + c.levelsBelow) ∧
      ∀ c ∈ cs, 1 + c.levelsBelow ≤ (node a cs).levelsBelow := by
  have hrec : (node a cs).levelsBelow =
      (((cs.map levelsBelow).max?).map (fun most => 1 + most)).getD 0 := recurse_node _ a cs
  cases hmost : (cs.map levelsBelow).max? with
  | none =>
    rw [List.max?_eq_none_iff, List.map_eq_nil_iff] at hmost
    exact absurd hmost h
  | some most =>
    rw [hmost] at hrec
    obtain ⟨hmem, hle⟩ := List.max?_eq_some_iff.1 hmost
    obtain ⟨c, hc, hcmost⟩ := List.mem_map.1 hmem
    refine ⟨⟨c, hc, by rw [hrec, hcmost]; rfl⟩, fun d hd => ?_⟩
    have hd := hle _ (List.mem_map_of_mem hd)
    rw [hrec]
    exact Nat.add_le_add_left hd 1

/-- A longest path has a node on each level, the root included. -/
theorem length_paths (t : Rose α) :
    (∃ p ∈ t.paths, p.length = t.levelsBelow + 1) ∧
      ∀ p ∈ t.paths, p.length ≤ t.levelsBelow + 1 := by
  induction t using byChildren with
  | node a cs ih =>
    by_cases hcs : cs = []
    · subst hcs
      have hlevels : (node a []).levelsBelow = 0 := recurse_node _ a []
      simp [hlevels]
    · obtain ⟨⟨c, hc, hmost⟩, hle⟩ := levelsBelow_node a hcs
      rw [paths_node a hcs]
      constructor
      · obtain ⟨p, hp, hlength⟩ := (ih c hc).1
        refine ⟨a :: p, List.mem_map_of_mem (List.mem_flatMap.2 ⟨c, hc, hp⟩), ?_⟩
        rw [List.length_cons]
        omega
      · intro p hp
        obtain ⟨q, hq, rfl⟩ := List.mem_map.1 hp
        obtain ⟨d, hd, hq⟩ := List.mem_flatMap.1 hq
        have hlength := (ih d hd).2 q hq
        have hd := hle d hd
        rw [List.length_cons]
        omega

/-- There is a path, so that there is a longest one. -/
theorem max?_length_paths (t : Rose α) :
    (t.paths.map (fun p => p.length - 1)).max? = some t.levelsBelow := by
  obtain ⟨⟨p, hp, hlength⟩, hle⟩ := length_paths t
  rw [List.max?_eq_some_iff]
  constructor
  · exact List.mem_map.2 ⟨p, hp, by omega⟩
  · intro n hn
    obtain ⟨q, hq, rfl⟩ := List.mem_map.1 hn
    have := hle q hq
    omega

theorem height_eq_levelsBelow (t : Rose α) : t.height = t.levelsBelow := by
  rw [height, max?_length_paths, Option.getD_some]

/-! ### Relabelling -/

/-- The children of a node with their addresses, from a given position on. -/
def addressedFrom (i : Nat) (address : List Nat) (ts : List (Rose α)) :
    List (List Nat × Rose α) :=
  (ts.zipIdx i).map (fun p => (address ++ [p.2], p.1))

theorem addressedFrom_cons (i : Nat) (address : List Nat) (t : Rose α) (ts : List (Rose α)) :
    addressedFrom i address (t :: ts) =
      (address ++ [i], t) :: addressedFrom (i + 1) address ts := rfl

/-- If each tree on the stack stands for the copy of all that is below its root, so do the children
of one node. Those before position `done.length` have been copied, of the others there are the
roots. -/
theorem copyInto_children {f : α → β} (address : List Nat) (rest : List (List Nat × Rose α))
    (target : Rose β) (cs : List (Rose α))
    (ih : ∀ c ∈ cs, ∀ address rest target, copyInto f ((address, c) :: rest) target =
      copyInto f rest (target.graft address (c.children.map (mapLabels f))))
    (done : List (Rose β)) :
    copyInto f (addressedFrom done.length address cs ++ rest)
        (target.graft address (done ++ cs.map (fun c => leaf (f c.label)))) =
      copyInto f rest (target.graft address (done ++ cs.map (mapLabels f))) := by
  induction cs generalizing done with
  | nil => simp [addressedFrom]
  | cons c cs ihcs =>
    have hcopy : node (f c.label) (c.children.map (mapLabels f)) = mapLabels f c := by
      cases c with
      | node a kids => exact (mapLabels_node f a kids).symm
    have hrest := ihcs (fun d hd => ih d (List.mem_cons_of_mem _ hd)) (done ++ [mapLabels f c])
    simp only [List.length_append, List.length_singleton, List.append_assoc,
      List.singleton_append] at hrest
    -- the first of the remaining children is on top of the stack
    rw [List.map_cons, List.map_cons, addressedFrom_cons, List.cons_append,
      ih c List.mem_cons_self, graft_graft, hcopy]
    exact hrest

/-- Taking the top off the stack amounts to copying all that is below its root. -/
theorem copyInto_cons {f : α → β} (t : Rose α) : ∀ (address : List Nat)
    (rest : List (List Nat × Rose α)) (target : Rose β),
    copyInto f ((address, t) :: rest) target =
      copyInto f rest (target.graft address (t.children.map (mapLabels f))) := by
  induction t using byChildren with
  | node a cs ih =>
    intro address rest target
    rw [copyInto]
    exact copyInto_children address rest target cs ih []

theorem relabel_eq_mapLabels (f : α → β) (t : Rose α) : t.relabel f = t.mapLabels f := by
  cases t with
  | node a cs =>
    rw [relabel, copyInto_cons, copyInto, mapLabels_node]
    rfl

/-! ### Places -/

/-- The subtree at a place, which lists child indices from the root. -/
def get? : Rose α → List Nat → Option (Rose α)
  | t, [] => some t
  | t, i :: p => t.children[i]?.bind (fun c => c.get? p)

/-- The label at a place. -/
def labelAt? (t : Rose α) (p : List Nat) : Option α := (t.get? p).map label

/-- The labels on the way to a place, from the root on. -/
def labelsTo (t : Rose α) (p : List Nat) : List α := p.inits.filterMap t.labelAt?

/-- Is there a leaf at the place? -/
def leafAt (t : Rose α) (p : List Nat) : Bool := (t.get? p).any isLeaf

/-- All places, parents first and from left to right. -/
def places (t : Rose α) : List (List Nat) :=
  recurse (fun _ below => [] :: below.zipIdx.flatMap (fun e => e.1.map (fun p => e.2 :: p))) t

/-- The places where the leaves are. -/
def leafPlaces (t : Rose α) : List (List Nat) := t.places.filter t.leafAt

/-- All places with a subtree that satisfies a condition, each once and in the order of words. -/
structure Lists (t : Rose α) (P : Rose α → Prop) (ps : List (List Nat)) : Prop where
  ordered : ps.Pairwise (List.Lex (fun i j => i < j))
  mem_iff : ∀ p, p ∈ ps ↔ ∃ s, t.get? p = some s ∧ P s

theorem get?_mapLabels (f : α → β) (t : Rose α) (p : List Nat) :
    (t.mapLabels f).get? p = (t.get? p).map (mapLabels f) := by
  induction p generalizing t with
  | nil => rfl
  | cons i p ih =>
    obtain ⟨a, cs⟩ := t
    rw [mapLabels_node, get?, get?, children, children, List.getElem?_map]
    cases cs[i]? with
    | none => rfl
    | some c => exact ih c

section children

variable {a : α} {cs : List (Rose α)} {e : Rose α × Nat}

theorem places_node (a : α) (cs : List (Rose α)) : (node a cs).places =
    [] :: cs.zipIdx.flatMap (fun e => e.1.places.map (fun p => e.2 :: p)) := by
  have hrec : (node a cs).places =
      [] :: (cs.map places).zipIdx.flatMap (fun e => e.1.map (fun p => e.2 :: p)) :=
    recurse_node _ a cs
  rw [hrec, List.zipIdx_map, List.flatMap_map]
  rfl

theorem flatMap_zipIdx {γ : Type} (g : Rose α → List γ) :
    cs.zipIdx.flatMap (fun e => g e.1) = cs.flatMap g := by
  rw [← List.flatMap_map, List.zipIdx_map_fst]

theorem get?_child (he : e ∈ cs.zipIdx) (p : List Nat) :
    (node a cs).get? (e.2 :: p) = e.1.get? p := by
  rw [get?, children, List.mem_zipIdx_iff_getElem?.1 he, Option.bind_some]

theorem labelsTo_child (he : e ∈ cs.zipIdx) (p : List Nat) :
    (node a cs).labelsTo (e.2 :: p) = a :: e.1.labelsTo p := by
  have hroot : (node a cs).labelAt? [] = some a := rfl
  have hbelow : ((node a cs).labelAt? ∘ fun q => e.2 :: q) = e.1.labelAt? := by
    funext q
    rw [Function.comp_apply, labelAt?, get?_child he, labelAt?]
  rw [labelsTo, List.inits_cons, List.filterMap_cons_some hroot, List.filterMap_map, hbelow,
    labelsTo]

end children

/-- The subtrees are those at the places. -/
theorem map_get?_places (t : Rose α) : t.places.map t.get? = t.subtrees.map some := by
  induction t using byChildren with
  | node a cs ih =>
    have hkids : ∀ e ∈ cs.zipIdx,
        (e.1.places.map (fun p => e.2 :: p)).map (node a cs).get? = e.1.subtrees.map some := by
      intro e he
      rw [← ih e.1 (List.fst_mem_of_mem_zipIdx he), List.map_map]
      exact List.map_congr_left (fun p _ => get?_child he p)
    rw [places_node, subtrees_node, List.map_cons, List.map_cons, List.map_flatMap,
      List.map_flatMap, List.flatMap_congr hkids, flatMap_zipIdx (fun c => c.subtrees.map some)]
    rfl

/-- The paths are those to the leaves. -/
theorem map_labelsTo_leafPlaces (t : Rose α) : t.leafPlaces.map t.labelsTo = t.paths := by
  induction t using byChildren with
  | node a cs ih =>
    have hkids : ∀ e ∈ cs.zipIdx,
        ((e.1.places.map (fun p => e.2 :: p)).filter (node a cs).leafAt).map (node a cs).labelsTo =
          e.1.paths.map (fun p => a :: p) := by
      intro e he
      have hleaf : ((node a cs).leafAt ∘ fun p => e.2 :: p) = e.1.leafAt := by
        funext p
        rw [Function.comp_apply, leafAt, get?_child he, leafAt]
      rw [← ih e.1 (List.fst_mem_of_mem_zipIdx he), List.filter_map, hleaf, List.map_map,
        List.map_map]
      exact List.map_congr_left (fun p _ => labelsTo_child he p)
    by_cases hcs : cs = []
    · subst hcs
      rw [paths_leaf]
      rfl
    · have hroot : ¬ (node a cs).leafAt [] = true := by
        simpa [leafAt, get?, isLeaf, children] using hcs
      rw [leafPlaces, places_node, List.filter_cons_of_neg hroot, List.filter_flatMap,
        List.map_flatMap, List.flatMap_congr hkids,
        flatMap_zipIdx (fun c => c.paths.map (fun p => a :: p)), paths_node a hcs, List.map_flatMap]

theorem pairwise_places (t : Rose α) : t.places.Pairwise (List.Lex (fun i j => i < j)) := by
  induction t using byChildren with
  | node a cs ih =>
    have hindices : cs.zipIdx.Pairwise (fun e e' => e.2 < e'.2) := by
      rw [← List.pairwise_map (f := Prod.snd), List.zipIdx_map_snd]
      exact List.pairwise_lt_range'
    rw [places_node, List.pairwise_cons, List.pairwise_flatMap]
    refine ⟨fun p hp => ?_, fun e he => ?_, hindices.imp (fun hlt p hp q hq => ?_)⟩
    · -- the root's place is the empty word
      obtain ⟨e, -, hp⟩ := List.mem_flatMap.1 hp
      obtain ⟨q, -, rfl⟩ := List.mem_map.1 hp
      exact .nil
    · rw [List.pairwise_map]
      exact (ih e.1 (List.fst_mem_of_mem_zipIdx he)).imp .cons
    · obtain ⟨p, -, rfl⟩ := List.mem_map.1 hp
      obtain ⟨q, -, rfl⟩ := List.mem_map.1 hq
      exact .rel hlt

theorem mem_places_iff (t : Rose α) (p : List Nat) : p ∈ t.places ↔ ∃ s, t.get? p = some s := by
  induction t using byChildren generalizing p with
  | node a cs ih =>
    rw [places_node, List.mem_cons, List.mem_flatMap]
    constructor
    · rintro (rfl | ⟨e, he, hp⟩)
      · exact ⟨_, rfl⟩
      · obtain ⟨q, hq, rfl⟩ := List.mem_map.1 hp
        rw [get?_child he]
        exact (ih e.1 (List.fst_mem_of_mem_zipIdx he) q).1 hq
    · rintro ⟨s, hs⟩
      cases p with
      | nil => exact .inl rfl
      | cons i p =>
        obtain ⟨c, hc, hs⟩ := Option.bind_eq_some_iff.1 hs
        refine .inr ⟨(c, i), List.mem_zipIdx_iff_getElem?.2 hc, List.mem_map_of_mem ?_⟩
        exact (ih c (List.mem_of_getElem? hc) p).2 ⟨s, hs⟩

theorem lists_places (t : Rose α) : t.Lists (fun _ => True) t.places where
  ordered := t.pairwise_places
  mem_iff p := by simp [mem_places_iff]

theorem lists_leafPlaces (t : Rose α) : t.Lists (fun s => s.isLeaf = true) t.leafPlaces where
  ordered := t.pairwise_places.filter _
  mem_iff p := by
    rw [leafPlaces, List.mem_filter, mem_places_iff, leafAt, Option.any_eq_true]
    constructor
    · rintro ⟨-, s, hs, hleaf⟩
      exact ⟨s, hs, hleaf⟩
    · rintro ⟨s, hs, hleaf⟩
      exact ⟨⟨s, hs⟩, s, hs, hleaf⟩

end Rose

namespace CallTree

open Rose Terminal

/-- For every call tree: the walk over its nodes is the recursion that takes a node before those of
its children, and has the subtree at each place once, in the order of the places. The walk over its
paths is the recursion that goes on in each child, and has the path to each leaf once, from left to
right. The height is the recursive one, and is the length of a path that there is. The tree of texts
is the recursive copy: at each place there is the text of the node there, with as many children. -/
theorem walks_eq_recursions (t : CallTree) (ascii : Bool) :
    (subtrees t = preorder t ∧
      ∃ ps, Lists t (fun _ => True) ps ∧ (subtrees t).map some = ps.map (get? t)) ∧
    (paths t = branches t ∧
      ∃ ps, Lists t (fun s => s.isLeaf = true) ps ∧ paths t = ps.map (labelsTo t)) ∧
    (height t = levelsBelow t ∧
      ((paths t).map (fun p => p.length - 1)).max? = some (levelsBelow t)) ∧
    (viewTree ascii t = mapLabels (nodeText ascii) t ∧
      ∀ p, (get? (viewTree ascii t) p).map (fun s => (s.label, s.children.length)) =
        (get? t p).map (fun s => (nodeText ascii s.label, s.children.length))) := by
  have hview : viewTree ascii t = mapLabels (nodeText ascii) t := relabel_eq_mapLabels _ t
  have hnode : (fun s : Rose String => (s.label, s.children.length)) ∘
      mapLabels (nodeText ascii) = fun s => (nodeText ascii s.label, s.children.length) := by
    funext s
    obtain ⟨n, cs⟩ := s
    rw [Function.comp_apply, mapLabels_node, children, List.length_map]
    rfl
  refine ⟨⟨subtrees_eq_preorder t, places t, lists_places t, (map_get?_places t).symm⟩,
    ⟨paths_eq_branches t, leafPlaces t, lists_leafPlaces t, (map_labelsTo_leafPlaces t).symm⟩,
    ⟨height_eq_levelsBelow t, max?_length_paths t⟩, hview, fun p => ?_⟩
  rw [hview, get?_mapLabels, Option.map_map, hnode]

end CallTree

end FieldTrace
