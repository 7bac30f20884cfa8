import FieldTrace.Hierarchy.Expansion

/-! # Building call trees

The tree grows from a stack of nodes whose children are still to be found. The node on top is
expanded and replaced by its children, each of which may go one level less deep; so the stack
descends in a well-founded order. A node whose expansion fails stays a leaf. -/

namespace FieldTrace

/-! ### The order of stacks -/

/-- The top of a stack is replaced by smaller entries. -/
inductive StackBelow : List Nat → List Nat → Prop where
  | replace (d : Nat) (smaller rest : List Nat) (h : ∀ c ∈ smaller, c < d) :
    StackBelow (smaller ++ rest) (d :: rest)

theorem StackBelow.acc_append {rest : List Nat} (h : Acc StackBelow rest) (top : List Nat)
    (one : ∀ c ∈ top, ∀ below, Acc StackBelow below → Acc StackBelow (c :: below)) :
    Acc StackBelow (top ++ rest) := by
  induction top with
  | nil => exact h
  | cons c cs ih =>
    exact one c (by simp) _ (ih (fun d hd => one d (by simp [hd])))

theorem StackBelow.acc_cons (d : Nat) :
    ∀ rest, Acc StackBelow rest → Acc StackBelow (d :: rest) := by
  induction d using Nat.strongRecOn with
  | ind d ih =>
    intro rest h
    constructor
    intro stack hs
    cases hs with
    | replace _ smaller _ hlt =>
      exact StackBelow.acc_append h smaller (fun c hc => ih c (hlt c hc))

theorem StackBelow.wellFounded : WellFounded StackBelow := by
  constructor
  intro stack
  induction stack with
  | nil =>
    constructor
    intro _ h
    cases h
  | cons d rest ih => exact StackBelow.acc_cons d rest ih

/-! ### Growing -/

/-- A node at an address of the tree, whose subtree may be `remaining` levels deep. -/
structure Pending where
  remaining : Nat
  address : List Nat
  task : Task

namespace Pending

/-- The levels that the entries of a stack may go. -/
def levels (stack : List Pending) : List Nat := stack.map Pending.remaining

/-- The pending children of a node; terminal ones are done. -/
def ofChildren (remaining : Nat) (address : List Nat) (children : List Child) : List Pending :=
  children.zipIdx.filterMap (fun c => c.1.2.map (fun task => ⟨remaining, address ++ [c.2], task⟩))

theorem remaining_of_mem {remaining : Nat} {address : List Nat} {children : List Child}
    {p : Pending} (h : p ∈ ofChildren remaining address children) : p.remaining = remaining := by
  simp only [ofChildren, List.mem_filterMap, Option.map_eq_some_iff] at h
  obtain ⟨_, _, _, _, rfl⟩ := h
  rfl

end Pending

/-- Expand the pending nodes of a tree, the top of the stack first. -/
def grow (a : IndexAccess) (stack : List Pending) (tree : CallTree) : Analysis CallTree :=
  match stack with
  | [] => return tree
  | ⟨0, _, _⟩ :: rest => do
    Analysis.checkpoint
    Analysis.count "nodes" 0
    grow a rest tree
  | ⟨remaining + 1, address, task⟩ :: rest => do
    Analysis.checkpoint
    match ← Analysis.attempt (Expansion.children a task) with
    | none => grow a rest tree
    | some children =>
      Analysis.count "nodes" children.length
      grow a (Pending.ofChildren remaining address children ++ rest)
        (tree.graft address (children.map (fun c => Rose.leaf c.1)))
termination_by StackBelow.wellFounded.wrap (Pending.levels stack)
decreasing_by
  · exact StackBelow.replace 0 [] (Pending.levels rest) (by simp)
  · exact StackBelow.replace (remaining + 1) [] (Pending.levels rest) (by simp)
  · have h := StackBelow.replace (remaining + 1)
      (Pending.levels (Pending.ofChildren remaining address children)) (Pending.levels rest) (by
        intro c hc
        obtain ⟨p, hp, rfl⟩ := List.mem_map.mp hc
        rw [Pending.remaining_of_mem hp]
        omega)
    simpa [Pending.levels, WellFounded.wrap] using h

/-- The root of the tree of a seed field. -/
def rootNode (type : String) (seed : FieldRef) (field : Option FieldDecl) : CallNode where
  owner := type
  name := seed.name
  params := []
  location := field.map FieldDecl.location
  category := .root
  label := simpleName type ++ "." ++ seed.name

/-- The caller tree of a seed field; the root alone if the field is not declared. -/
def buildHierarchy (a : IndexAccess) (seed : FieldRef) : Analysis CallTree := do
  Analysis.checkpoint
  match (← a.resolveType seed.declaringType).filter (fun t => t ≠ "") with
  | none => return .leaf (rootNode seed.declaringType seed none)
  | some type =>
    match ← a.fieldOn type seed.name with
    | none => return .leaf (rootNode type seed none)
    | some field =>
      let root := rootNode type seed (some field)
      let task : Task := {
        step := .root, path := [root.key], spliced := [], context := ⟨type, seed.name⟩ }
      grow a [⟨(← get).settings.maxDepth, [], task⟩] (.leaf root)

end FieldTrace
