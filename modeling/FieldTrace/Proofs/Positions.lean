import FieldTrace.Proofs.Registration
import Mathlib.Data.List.Basic

/-! # Positions in a tree

The child indices that lead from a root to a node are the node's position. A cursor holds the node
at its position (`Cursor.At`), and so do the cursors of its children. A walk over a tree visits the
nodes that can be reached through named nodes (`mem_visitsAt_iff`), and its nodes, without their
positions, are the preorder of the tree. -/

namespace FieldTrace.Syntax

/-! ### Nodes at positions -/

/-- The node that child indices lead to, the outermost first. -/
def Tree.get? : Tree → List Nat → Option Tree
  | t, [] => some t
  | t, i :: is => t.children[i]?.bind (fun c => c.get? is)

namespace Tree

@[simp] theorem get?_nil (t : Tree) : t.get? [] = some t := rfl

@[simp] theorem get?_cons (t : Tree) (i : Nat) (is : List Nat) :
    t.get? (i :: is) = t.children[i]?.bind (fun c => c.get? is) := rfl

theorem get?_append (t : Tree) (p q : List Nat) :
    t.get? (p ++ q) = (t.get? p).bind (fun u => u.get? q) := by
  induction p generalizing t with
  | nil => rfl
  | cons i p ih =>
    simp only [List.cons_append, get?_cons]
    cases t.children[i]? with
    | none => rfl
    | some c => exact ih c

theorem self_mem_nodes (t : Tree) : t ∈ t.nodes := by
  obtain ⟨k, r, s, e, cs⟩ := t
  rw [nodes]
  exact List.mem_cons_self

theorem nodes_subset_nodesAll {t : Tree} {ts : List Tree} (h : t ∈ ts) : t.nodes ⊆ nodesAll ts := by
  induction ts with
  | nil => cases h
  | cons u ts ih =>
    rw [nodesAll]
    obtain rfl | h := List.mem_cons.1 h
    · exact List.subset_append_left _ _
    · exact List.Subset.trans (ih h) (List.subset_append_right _ _)

theorem nodes_subset_of_mem_children {t c : Tree} (h : c ∈ t.children) : c.nodes ⊆ t.nodes := by
  obtain ⟨k, r, s, e, cs⟩ := t
  rw [nodes]
  exact List.Subset.trans (nodes_subset_nodesAll h) (List.subset_cons_self _ _)

theorem nodes_subset_of_get? {t u : Tree} {q : List Nat} (h : t.get? q = some u) :
    u.nodes ⊆ t.nodes := by
  induction q generalizing t with
  | nil =>
    cases h
    exact List.Subset.refl _
  | cons i q ih =>
    obtain ⟨c, hc, h⟩ := Option.bind_eq_some_iff.1 h
    exact List.Subset.trans (ih h) (nodes_subset_of_mem_children (List.mem_of_getElem? hc))

theorem mem_nodes_of_get? {t u : Tree} {q : List Nat} (h : t.get? q = some u) : u ∈ t.nodes :=
  nodes_subset_of_get? h u.self_mem_nodes

end Tree

/-! ### Cursors -/

namespace Cursor

variable {c d : Cursor} {root : Tree}

theorem mem_children_iff :
    d ∈ c.children ↔ ∃ i, c.node.children[i]? = some d.node ∧ d.path = i :: c.path := by
  constructor
  · intro h
    obtain ⟨⟨t, i⟩, hp, rfl⟩ := List.mem_map.1 h
    exact ⟨i, List.mem_zipIdx_iff_getElem?.1 hp, rfl⟩
  · rintro ⟨i, hi, hpath⟩
    refine List.mem_map.2 ⟨(d.node, i), List.mem_zipIdx_iff_getElem?.2 hi, ?_⟩
    rw [← hpath]

theorem map_node_children (c : Cursor) : c.children.map node = c.node.children := by
  have hfst : c.children.map node = c.node.children.zipIdx.map Prod.fst := List.map_map
  rw [hfst, List.zipIdx_map_fst]

theorem map_node_child? (c : Cursor) (r : Role) : (c.child? r).map node = c.node.child? r := by
  rw [Tree.child?, ← map_node_children, List.find?_map]
  rfl

theorem map_node_namedChildren (c : Cursor) : c.namedChildren.map node = c.node.namedChildren := by
  rw [Tree.namedChildren, ← map_node_children, List.filter_map]
  rfl

theorem mem_children_of_child? {r : Role} (h : c.child? r = some d) : d ∈ c.children :=
  List.mem_of_find?_eq_some h

theorem mem_children_of_namedChildren (h : d ∈ c.namedChildren) : d ∈ c.children :=
  (List.mem_filter.1 h).1

/-- The cursor holds the node at its position below the root. -/
def At (root : Tree) (c : Cursor) : Prop := root.get? c.path.reverse = some c.node

theorem At.eq (hc : c.At root) (hd : d.At root) (hpath : c.path = d.path) : c = d := by
  obtain ⟨path, node⟩ := c
  obtain ⟨path', node'⟩ := d
  cases hpath
  cases hc.symm.trans hd
  rfl

theorem At.of_mem_children (hc : c.At root) (h : d ∈ c.children) : d.At root := by
  obtain ⟨i, hi, hpath⟩ := mem_children_iff.1 h
  rw [At, hpath, List.reverse_cons, Tree.get?_append, hc, Option.bind_some, Tree.get?_cons, hi]
  rfl

theorem At.of_child? {r : Role} (hc : c.At root) (h : c.child? r = some d) : d.At root :=
  hc.of_mem_children (mem_children_of_child? h)

theorem At.of_mem_namedChildren (hc : c.At root) (h : d ∈ c.namedChildren) : d.At root :=
  hc.of_mem_children (mem_children_of_namedChildren h)

theorem At.mem_nodes (hc : c.At root) : c.node ∈ root.nodes := Tree.mem_nodes_of_get? hc

theorem nodes_subset_of_mem_children (h : d ∈ c.children) : d.node.nodes ⊆ c.node.nodes := by
  obtain ⟨i, hi, -⟩ := mem_children_iff.1 h
  exact Tree.nodes_subset_of_mem_children (List.mem_of_getElem? hi)

end Cursor

/-! ### Visits -/

namespace Visit

/-- The visit that child indices below the visited node lead to, through named nodes. -/
def below? : Visit → List Nat → Option Visit
  | v, [] => some v
  | v, i :: is =>
    (v.cursor.node.children[i]?.filter Tree.isNamed).bind (fun c => (v.toChild i c).below? is)

theorem below?_cons {v w : Visit} {i : Nat} {is : List Nat} :
    v.below? (i :: is) = some w ↔ ∃ c, v.cursor.node.children[i]? = some c ∧ c.isNamed = true ∧
      (v.toChild i c).below? is = some w := by
  rw [below?, Option.bind_eq_some_iff]
  simp only [Option.filter_eq_some_iff, and_assoc]

theorem below?_append (v : Visit) (p q : List Nat) :
    v.below? (p ++ q) = (v.below? p).bind (fun w => w.below? q) := by
  induction p generalizing v with
  | nil => rfl
  | cons i p ih =>
    rw [List.cons_append, below?, below?]
    cases v.cursor.node.children[i]?.filter Tree.isNamed with
    | none => rfl
    | some c => exact ih (v.toChild i c)

/-- A position leads to the node there. -/
theorem get?_of_below? {v w : Visit} {is : List Nat} (h : v.below? is = some w) :
    v.cursor.node.get? is = some w.cursor.node ∧
      w.cursor.path = is.reverse ++ v.cursor.path := by
  induction is generalizing v with
  | nil =>
    cases h
    exact ⟨rfl, rfl⟩
  | cons i is ih =>
    obtain ⟨c, hc, -, h⟩ := below?_cons.1 h
    obtain ⟨hnode, hpath⟩ := ih h
    rw [Tree.get?_cons, hc, Option.bind_some, hpath, toChild, List.reverse_cons, List.append_assoc]
    exact ⟨hnode, rfl⟩

theorem mem_namedChildren_iff {v w : Visit} :
    w ∈ v.namedChildren ↔
      ∃ i c, v.cursor.node.children[i]? = some c ∧ c.isNamed = true ∧ w = v.toChild i c := by
  constructor
  · intro h
    obtain ⟨⟨c, i⟩, hp, rfl⟩ := List.mem_map.1 h
    obtain ⟨hc, hnamed⟩ := List.mem_filter.1 hp
    exact ⟨i, c, List.mem_zipIdx_iff_getElem?.1 hc, hnamed, rfl⟩
  · rintro ⟨i, c, hc, hnamed, rfl⟩
    exact List.mem_map.2 ⟨(c, i), List.mem_filter.2 ⟨List.mem_zipIdx_iff_getElem?.2 hc, hnamed⟩, rfl⟩

theorem mem_pushed_iff {fromRight : Bool} {v w : Visit} :
    w ∈ v.pushed fromRight ↔ w ∈ v.namedChildren := by
  unfold pushed
  split
  · rfl
  · exact List.mem_reverse

theorem size_lt_of_mem_namedChildren {v w : Visit} (h : w ∈ v.namedChildren) :
    w.cursor.node.size < v.cursor.node.size := by
  have hle : w.cursor.node.size ≤ stackSize v.namedChildren :=
    size_le_sizeAll (List.mem_map_of_mem h)
  exact Nat.lt_of_le_of_lt hle (stackSize_namedChildren_lt v)

end Visit

/-! ### Walks

What lies deeper in the stack is visited later and changes nothing before. So the visits satisfy the
equation of a recursion: the node first, then what is below its named children, one after the
other. -/

section

variable {fromRight : Bool}

theorem visitsOf_append (first second : List Visit) :
    visitsOf fromRight (first ++ second) =
      visitsOf fromRight first ++ visitsOf fromRight second := by
  fun_induction visitsOf fromRight first with
  | case1 => rfl
  | case2 v stack ih =>
    rw [List.cons_append, visitsOf, List.cons_append, ← ih, pushAll_eq, pushAll_eq,
      List.append_assoc]

theorem visitsOf_eq_flatMap (stack : List Visit) :
    visitsOf fromRight stack = stack.flatMap (fun v => visitsOf fromRight [v]) := by
  induction stack with
  | nil => rw [visitsOf, List.flatMap_nil]
  | cons v stack ih => rw [List.flatMap_cons, ← ih, ← visitsOf_append, List.singleton_append]

/-- A node comes before all that is below it. -/
theorem visitsOf_singleton (v : Visit) :
    visitsOf fromRight [v] =
      v :: (v.pushed fromRight).reverse.flatMap (fun w => visitsOf fromRight [w]) := by
  rw [visitsOf, pushAll_eq, List.append_nil, visitsOf_eq_flatMap]

/-- A walk visits the nodes that it can reach through named nodes. -/
theorem mem_visitsOf_singleton_iff (v : Visit) {w : Visit} :
    w ∈ visitsOf fromRight [v] ↔ ∃ is, v.below? is = some w := by
  have hchild : ∀ u ∈ v.namedChildren,
      (w ∈ visitsOf fromRight [u] ↔ ∃ is, u.below? is = some w) := by
    intro u hu
    have hsize := Visit.size_lt_of_mem_namedChildren hu
    exact mem_visitsOf_singleton_iff u
  have hmem : w ∈ visitsOf fromRight [v] ↔
      w = v ∨ ∃ u ∈ v.namedChildren, w ∈ visitsOf fromRight [u] := by
    rw [visitsOf_singleton, List.mem_cons, List.mem_flatMap]
    simp only [List.mem_reverse, Visit.mem_pushed_iff]
  rw [hmem]
  constructor
  · rintro (rfl | ⟨u, hu, hw⟩)
    · exact ⟨[], rfl⟩
    · obtain ⟨is, his⟩ := (hchild u hu).1 hw
      obtain ⟨i, c, hc, hnamed, rfl⟩ := Visit.mem_namedChildren_iff.1 hu
      exact ⟨i :: is, Visit.below?_cons.2 ⟨c, hc, hnamed, his⟩⟩
  · rintro ⟨is, his⟩
    cases is with
    | nil => exact .inl (Option.some.inj his).symm
    | cons i is =>
      obtain ⟨c, hc, hnamed, his⟩ := Visit.below?_cons.1 his
      have hu := Visit.mem_namedChildren_iff.2 ⟨i, c, hc, hnamed, rfl⟩
      exact .inr ⟨_, hu, (hchild _ hu).2 ⟨is, his⟩⟩
termination_by v.cursor.node.size

end

theorem mem_visits_iff {v : Visit} {parent body : Tree} :
    v ∈ visits parent body ↔ ∃ is, Visit.below? ⟨⟨[], body⟩, 0, parent, none⟩ is = some v :=
  mem_visitsOf_singleton_iff _

/-- Both walks visit the same nodes. -/
theorem mem_visitsFromRight_iff {v : Visit} {parent body : Tree} :
    v ∈ visitsFromRight parent body ↔ v ∈ visits parent body :=
  (mem_visitsOf_singleton_iff _).trans mem_visits_iff.symm

theorem at_of_mem_visits {v : Visit} {parent body : Tree} (h : v ∈ visits parent body) :
    v.cursor.At body := by
  obtain ⟨is, his⟩ := mem_visits_iff.1 h
  obtain ⟨hnode, hpath⟩ := Visit.get?_of_below? his
  rw [Cursor.At, hpath, List.append_nil, List.reverse_reverse]
  exact hnode

/-! ### Reading order -/

mutual

/-- The node and all named nodes below it, each before those below it, from left to right. -/
def Tree.preorder : Tree → List Tree
  | .node k r s e cs => .node k r s e cs :: preorderAll cs

/-- The named nodes of a list of trees in preorder. -/
def preorderAll : List Tree → List Tree
  | [] => []
  | t :: ts => (if t.isNamed then t.preorder else []) ++ preorderAll ts

end

theorem preorderAll_eq_flatMap (ts : List Tree) :
    preorderAll ts = (ts.filter Tree.isNamed).flatMap Tree.preorder := by
  induction ts with
  | nil => rw [preorderAll, List.filter_nil, List.flatMap_nil]
  | cons t ts ih =>
    rw [preorderAll, ih, List.filter_cons]
    split
    · rw [List.flatMap_cons]
    · rw [List.nil_append]

theorem Tree.preorder_eq (t : Tree) : t.preorder = t :: t.namedChildren.flatMap preorder := by
  obtain ⟨k, r, s, e, cs⟩ := t
  rw [preorder, preorderAll_eq_flatMap]
  rfl

/-- A walk that pushes from right to left visits the nodes in preorder. -/
theorem map_node_visitsOf (v : Visit) :
    (visitsOf false [v]).map (fun w => w.cursor.node) = v.cursor.node.preorder := by
  have hchildren : v.namedChildren.flatMap
        (fun w => (visitsOf false [w]).map (fun u => u.cursor.node)) =
      v.namedChildren.flatMap (fun w => w.cursor.node.preorder) := by
    apply List.flatMap_congr
    intro w hw
    have hsize := Visit.size_lt_of_mem_namedChildren hw
    exact map_node_visitsOf w
  have hpushed : (v.pushed false).reverse = v.namedChildren := List.reverse_reverse _
  rw [visitsOf_singleton, hpushed, List.map_cons, List.map_flatMap, hchildren, Tree.preorder_eq,
    ← v.map_node_namedChildren, List.flatMap_map]
termination_by v.cursor.node.size

theorem map_node_visits (parent body : Tree) :
    (visits parent body).map (fun v => v.cursor.node) = body.preorder :=
  map_node_visitsOf _

end FieldTrace.Syntax
