/-! # Rose trees

Trees with any number of children. The walks keep a list of the trees still to be visited, so that
they need no recursion on the tree. -/

namespace FieldTrace

/-- A tree with a label at each node and any number of children. -/
inductive Rose (α : Type) where
  | node (label : α) (children : List (Rose α))
  deriving Repr, Inhabited

namespace Rose

variable {α β : Type}

def label : Rose α → α
  | node a _ => a

def children : Rose α → List (Rose α)
  | node _ cs => cs

/-- A tree without children. -/
def leaf (a : α) : Rose α := node a []

/-- Has the tree no children? -/
def isLeaf (t : Rose α) : Bool := t.children.isEmpty

/-! ### Sizes -/

mutual

/-- The number of nodes. -/
def size : Rose α → Nat
  | node _ cs => forestSize cs + 1

/-- The number of nodes of a list of trees. -/
def forestSize : List (Rose α) → Nat
  | [] => 0
  | t :: ts => t.size + forestSize ts

end

theorem forestSize_append (as bs : List (Rose α)) :
    forestSize (as ++ bs) = forestSize as + forestSize bs := by
  induction as with
  | nil => simp [forestSize]
  | cons a as ih => simp only [List.cons_append, forestSize, ih]; omega

/-! ### Growing -/

/-- Replace the children of the node at an address, which lists child indices from the root. -/
def graft : List Nat → List (Rose α) → Rose α → Rose α
  | [], cs, node a _ => node a cs
  | i :: address, cs, node a kids => node a (kids.modify i (graft address cs))

/-! ### Walks -/

/-- All subtrees of the trees still to be visited, parents first and from left to right. -/
def walk : List (Rose α) → List (Rose α)
  | [] => []
  | node a cs :: rest => node a cs :: walk (cs ++ rest)
termination_by pending => forestSize pending
decreasing_by simp only [forestSize_append, forestSize, size]; omega

/-- All subtrees, parents first and from left to right. -/
def subtrees (t : Rose α) : List (Rose α) := walk [t]

/-- Trees to be visited, each with the same remark. -/
def remark {γ : Type} (c : γ) (ts : List (Rose α)) : List (γ × Rose α) := ts.map (fun t => (c, t))

theorem map_snd_remark {γ : Type} (c : γ) (ts : List (Rose α)) :
    (remark c ts).map Prod.snd = ts := by
  simp [remark, Function.comp_def]

/-- The paths to the leaves below the trees still to be visited, each of which comes with the path
that leads to it, innermost first. -/
def walkPaths : List (List α × Rose α) → List (List α)
  | [] => []
  | (path, node a []) :: rest => (a :: path).reverse :: walkPaths rest
  | (path, node a (c :: cs)) :: rest => walkPaths (remark (a :: path) (c :: cs) ++ rest)
termination_by pending => forestSize (pending.map Prod.snd)
decreasing_by
  · simp only [List.map_cons, forestSize, size]; omega
  · simp only [List.map_cons, List.map_append, map_snd_remark, forestSize_append, forestSize, size]
    omega

/-- The paths from the root to the leaves, from left to right. -/
def paths (t : Rose α) : List (List α) := walkPaths [([], t)]

/-- The number of edges on the longest path to a leaf. -/
def height (t : Rose α) : Nat := ((t.paths.map (fun p => p.length - 1)).max?).getD 0

/-- The depth and label of each node below the trees still to be visited. -/
def walkDepths : List (Nat × Rose α) → List (Nat × α)
  | [] => []
  | (d, node a cs) :: rest => (d, a) :: walkDepths (remark (d + 1) cs ++ rest)
termination_by pending => forestSize (pending.map Prod.snd)
decreasing_by
  simp only [List.map_cons, List.map_append, map_snd_remark, forestSize_append, forestSize, size]
  omega

/-- The labels with their depths, parents first and from left to right. -/
def depths (t : Rose α) : List (Nat × α) := walkDepths [(0, t)]

/-! ### Relabelling -/

/-- The children of a node with their addresses. -/
def addressed (address : List Nat) (ts : List (Rose α)) : List (List Nat × Rose α) :=
  ts.zipIdx.map (fun p => (address ++ [p.2], p.1))

theorem map_snd_addressed (address : List Nat) (ts : List (Rose α)) :
    (addressed address ts).map Prod.snd = ts := by
  simp [addressed, Function.comp_def]

/-- Copy the children of the trees still to be visited into a tree at their addresses, with each
label replaced. -/
def copyInto (f : α → β) : List (List Nat × Rose α) → Rose β → Rose β
  | [], target => target
  | (address, node _ cs) :: rest, target =>
    copyInto f (addressed address cs ++ rest)
      (target.graft address (cs.map (fun c => leaf (f c.label))))
termination_by pending => forestSize (pending.map Prod.snd)
decreasing_by
  simp only [List.map_cons, List.map_append, map_snd_addressed, forestSize_append, forestSize, size]
  omega

/-- The tree of the same shape with each label replaced. -/
def relabel (f : α → β) (t : Rose α) : Rose β := copyInto f [([], t)] (leaf (f t.label))

end Rose

end FieldTrace
