import FieldTrace.Hierarchy.Category
import FieldTrace.Rose

/-! # Call trees

A call tree has the traced field at its root and callers below. -/

namespace FieldTrace

/-- What identifies a node on a path: owner, name and parameter types. -/
abbrev NodeKey := MethodId

/-- A node of a call tree. -/
structure CallNode where
  owner : String
  name : String
  params : List String
  location : Option Location
  category : Category
  label : String
  deriving DecidableEq, Repr, Inhabited

/-- What identifies the node on a path. -/
def CallNode.key (n : CallNode) : NodeKey := ⟨n.owner, n.name, n.params⟩

/-- A tree of callers. -/
abbrev CallTree := Rose CallNode

namespace CallTree

variable (t : CallTree)

/-- The nodes, parents first and from left to right. -/
def nodes : List CallNode := (Rose.subtrees t).map Rose.label

/-- The subtrees whose root has a name. -/
def find (name : String) : List CallTree := (Rose.subtrees t).filter (fun s => s.label.name = name)

/-- One line for each node: two blanks for each level, category, label and place. -/
def outline : List String :=
  (Rose.depths t).map (fun p =>
    String.ofList (List.replicate (2 * p.1) ' ') ++ p.2.category.text ++ " " ++ p.2.label ++ " @ "
      ++ (p.2.location.map Location.text).getD "None")

end CallTree

end FieldTrace
