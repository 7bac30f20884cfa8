import FieldTrace.Syntax.Kind

/-! # Parse trees

A parse tree is plain data: any kind may have any children, so malformed sources have trees too.
A `Cursor` is a node together with its position below a chosen root, which is its identity. -/

namespace FieldTrace.Syntax

/-- A node with its kind, its role in its parent, its byte range and its children. -/
inductive Tree where
  | node (kind : Kind) (role : Role) (start stop : Nat) (children : List Tree)
  deriving Repr, Inhabited

namespace Tree

def kind : Tree → Kind
  | node k _ _ _ _ => k

def role : Tree → Role
  | node _ r _ _ _ => r

/-- Offset of the first byte. -/
def start : Tree → Nat
  | node _ _ s _ _ => s

/-- Offset after the last byte. -/
def stop : Tree → Nat
  | node _ _ _ e _ => e

def children : Tree → List Tree
  | node _ _ _ _ cs => cs

variable (t : Tree)

/-- Keywords are not named; all other nodes are. -/
def isNamed : Bool := t.kind.isNamed

/-- The children that are not keywords. -/
def namedChildren : List Tree := t.children.filter isNamed

/-- The first child with a role. -/
def child? (r : Role) : Option Tree := t.children.find? (fun c => c.role = r)

/-- All children with a role. -/
def childrenWith (r : Role) : List Tree := t.children.filter (fun c => c.role = r)

/-- The place among the children of the first one with a role. -/
def childIndex? (r : Role) : Option Nat := t.children.findIdx? (fun c => c.role = r)

/-- The members of a declaration body; those after the constants of an enumeration count too. -/
def members : List Tree :=
  t.namedChildren.flatMap (fun c =>
    if c.kind = .enumBodyDeclarations then c.namedChildren else [c])

end Tree

mutual

/-- The number of nodes of a tree. -/
def Tree.size : Tree → Nat
  | .node _ _ _ _ cs => sizeAll cs + 1

/-- The number of nodes of a list of trees. -/
def sizeAll : List Tree → Nat
  | [] => 0
  | t :: ts => t.size + sizeAll ts

end

/-- A node and its position: the child indices that lead to it from the root, innermost first. -/
structure Cursor where
  path : List Nat
  node : Tree

namespace Cursor

/-- A cursor at the root. -/
def top (t : Tree) : Cursor := ⟨[], t⟩

variable (c : Cursor)

def kind : Kind := c.node.kind

/-- The children with their positions. -/
def children : List Cursor :=
  c.node.children.zipIdx.map (fun p => ⟨p.2 :: c.path, p.1⟩)

/-- The children that are not keywords. -/
def namedChildren : List Cursor := c.children.filter (fun d => d.node.isNamed)

/-- The first child with a role. -/
def child? (r : Role) : Option Cursor := c.children.find? (fun d => d.node.role = r)

/-- All children with a role. -/
def childrenWith (r : Role) : List Cursor := c.children.filter (fun d => d.node.role = r)

end Cursor

theorem sizeAll_append (as bs : List Tree) : sizeAll (as ++ bs) = sizeAll as + sizeAll bs := by
  induction as with
  | nil => rw [List.nil_append, sizeAll, Nat.zero_add]
  | cons a as ih => rw [List.cons_append, sizeAll, sizeAll, ih, Nat.add_assoc]

theorem sizeAll_reverse (ts : List Tree) : sizeAll ts.reverse = sizeAll ts := by
  induction ts with
  | nil => rfl
  | cons t ts ih =>
    rw [List.reverse_cons, sizeAll_append, ih, sizeAll, sizeAll, sizeAll, Nat.add_comm, Nat.add_zero]

theorem size_le_sizeAll {t : Tree} {ts : List Tree} (h : t ∈ ts) : t.size ≤ sizeAll ts := by
  induction ts with
  | nil => cases h
  | cons t' ts ih =>
    rw [sizeAll]
    obtain rfl | h := List.mem_cons.1 h
    · omega
    · have := ih h
      omega

theorem sizeAll_filter_le (p : Tree → Bool) (ts : List Tree) :
    sizeAll (ts.filter p) ≤ sizeAll ts := by
  induction ts with
  | nil => exact Nat.le_refl _
  | cons t ts ih =>
    rw [List.filter_cons, sizeAll]
    split
    · rw [sizeAll]
      omega
    · omega

/-! ### Walks over the named nodes

A walk keeps a stack of the nodes that are still to be visited. -/

/-- A node met on a walk, with its place among the children of its parent. -/
structure Visit where
  cursor : Cursor
  index : Nat
  parent : Tree
  grandparent : Option Tree

namespace Visit

variable (v : Visit)

/-- The visit of a child of the visited node. -/
def toChild (i : Nat) (c : Tree) : Visit :=
  ⟨⟨i :: v.cursor.path, c⟩, i, v.cursor.node, some v.parent⟩

/-- The visits of the named children of the visited node, from left to right. -/
def namedChildren : List Visit :=
  (v.cursor.node.children.zipIdx.filter (fun p => p.1.isNamed)).map (fun p => v.toChild p.2 p.1)

theorem map_node_namedChildren :
    v.namedChildren.map (fun w => w.cursor.node) = v.cursor.node.namedChildren := by
  have hfst : v.namedChildren.map (fun w => w.cursor.node) =
      (v.cursor.node.children.zipIdx.filter (fun p => p.1.isNamed)).map Prod.fst := List.map_map
  have hfilter :=
    List.filter_map (p := Tree.isNamed) (f := Prod.fst) (l := v.cursor.node.children.zipIdx)
  rw [List.zipIdx_map_fst] at hfilter
  rw [hfst, Tree.namedChildren, hfilter]
  rfl

end Visit

/-- Push visits on a stack, whose top comes first; the last one ends up on top. -/
def pushAll (stack vs : List Visit) : List Visit := vs.foldl (fun stack v => v :: stack) stack

theorem pushAll_eq (stack vs : List Visit) : pushAll stack vs = vs.reverse ++ stack :=
  List.foldl_flip_cons_eq_append'

/-- The number of nodes on a stack and below them. -/
def stackSize (stack : List Visit) : Nat := sizeAll (stack.map (fun v => v.cursor.node))

theorem stackSize_cons (v : Visit) (stack : List Visit) :
    stackSize (v :: stack) = v.cursor.node.size + stackSize stack := by
  rw [stackSize, List.map_cons, sizeAll, stackSize]

theorem stackSize_reverse (stack : List Visit) : stackSize stack.reverse = stackSize stack := by
  rw [stackSize, List.map_reverse, sizeAll_reverse, stackSize]

theorem stackSize_pushAll (stack vs : List Visit) :
    stackSize (pushAll stack vs) = stackSize vs + stackSize stack := by
  rw [pushAll_eq, stackSize, List.map_append, sizeAll_append, ← stackSize, ← stackSize,
    stackSize_reverse]

/-- The named children of a node in the order in which a walk pushes them: from right to left, so
that the first one ends up on top, or from left to right, so that the last one does. -/
def Visit.pushed (fromRight : Bool) (v : Visit) : List Visit :=
  if fromRight then v.namedChildren else v.namedChildren.reverse

theorem stackSize_namedChildren_lt (v : Visit) : stackSize v.namedChildren < v.cursor.node.size := by
  rw [stackSize, v.map_node_namedChildren, Tree.namedChildren]
  obtain ⟨k, r, s, e, cs⟩ := v.cursor.node
  rw [Tree.size]
  exact Nat.lt_succ_of_le (sizeAll_filter_le _ cs)

theorem stackSize_pushed (fromRight : Bool) (v : Visit) :
    stackSize (v.pushed fromRight) = stackSize v.namedChildren := by
  unfold Visit.pushed
  split
  · rfl
  · exact stackSize_reverse _

/-- The visits of a walk with a given stack: the node on top is visited, then its named children
are pushed in its place. -/
def visitsOf (fromRight : Bool) : List Visit → List Visit
  | [] => []
  | v :: stack => v :: visitsOf fromRight (pushAll stack (v.pushed fromRight))
termination_by stack => stackSize stack
decreasing_by
  rw [stackSize_pushAll, stackSize_pushed, stackSize_cons]
  exact Nat.add_lt_add_right (stackSize_namedChildren_lt v) _

/-- All named nodes of `body`, a child of `parent`, in reading order. -/
def visits (parent body : Tree) : List Visit := visitsOf false [⟨.top body, 0, parent, none⟩]

/-- All named nodes of `body`, a child of `parent`, parents first but later siblings before
earlier ones. -/
def visitsFromRight (parent body : Tree) : List Visit :=
  visitsOf true [⟨.top body, 0, parent, none⟩]

end FieldTrace.Syntax
