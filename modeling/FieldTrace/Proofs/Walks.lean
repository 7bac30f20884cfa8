import FieldTrace.Hierarchy.CallTree

/-! # Walks as recursions

The walks over a tree keep a list of the trees still to be visited. What comes later in that list is
visited later and changes nothing before, so each walk satisfies the equation of a recursion: the
node first, then its children from left to right. -/

namespace FieldTrace

namespace Rose

variable {α : Type}

/-! ### Subtrees -/

theorem walk_append (first second : List (Rose α)) :
    walk (first ++ second) = walk first ++ walk second := by
  fun_induction walk first with
  | case1 => rfl
  | case2 a cs rest ih =>
    rw [List.cons_append, walk, List.cons_append, ← ih, List.append_assoc]

theorem walk_eq_flatMap (ts : List (Rose α)) : walk ts = ts.flatMap subtrees := by
  induction ts with
  | nil => simp [walk]
  | cons t ts ih =>
    have hsplit : walk ([t] ++ ts) = walk [t] ++ walk ts := walk_append [t] ts
    rw [List.singleton_append, ih] at hsplit
    rw [hsplit, List.flatMap_cons, subtrees]

/-- A tree comes before the subtrees of its children. -/
theorem subtrees_node (a : α) (cs : List (Rose α)) :
    (node a cs).subtrees = node a cs :: cs.flatMap subtrees := by
  rw [subtrees, walk, List.append_nil, walk_eq_flatMap]

/-! ### Depths -/

theorem walkDepths_append (first second : List (Nat × Rose α)) :
    walkDepths (first ++ second) = walkDepths first ++ walkDepths second := by
  fun_induction walkDepths first with
  | case1 => rfl
  | case2 d a cs rest ih =>
    rw [List.cons_append, walkDepths, List.cons_append, ← ih, List.append_assoc]

/-- Trees that start one level deeper have all their nodes one level deeper. -/
theorem walkDepths_succ (pending : List (Nat × Rose α)) :
    walkDepths (pending.map (fun e => (e.1 + 1, e.2))) =
      (walkDepths pending).map (fun p => (p.1 + 1, p.2)) := by
  fun_induction walkDepths pending with
  | case1 => simp [walkDepths]
  | case2 d a cs rest ih =>
    rw [List.map_cons, walkDepths, List.map_cons, ← ih]
    simp [remark, Function.comp_def]

theorem walkDepths_remark (ts : List (Rose α)) :
    walkDepths (remark 1 ts) = (ts.flatMap depths).map (fun p => (p.1 + 1, p.2)) := by
  induction ts with
  | nil => simp [remark, walkDepths]
  | cons t ts ih =>
    have hhead : walkDepths [(1, t)] = t.depths.map (fun p => (p.1 + 1, p.2)) :=
      walkDepths_succ [(0, t)]
    calc walkDepths (remark 1 (t :: ts))
        = walkDepths [(1, t)] ++ walkDepths (remark 1 ts) := walkDepths_append [(1, t)] _
      _ = ((t :: ts).flatMap depths).map (fun p => (p.1 + 1, p.2)) := by
        rw [hhead, ih, List.flatMap_cons, List.map_append]

/-- The root is at depth zero, and the nodes of the children are one level deeper than there. -/
theorem depths_node (a : α) (cs : List (Rose α)) :
    (node a cs).depths = (0, a) :: (cs.flatMap depths).map (fun p => (p.1 + 1, p.2)) := by
  rw [depths, walkDepths, List.append_nil, walkDepths_remark]

end Rose

/-- The node comes before those of its children. -/
theorem CallTree.nodes_node (n : CallNode) (cs : List CallTree) :
    nodes (.node n cs) = n :: cs.flatMap nodes := by
  unfold nodes
  rw [Rose.subtrees_node, List.map_cons, List.map_flatMap]
  rfl

end FieldTrace
