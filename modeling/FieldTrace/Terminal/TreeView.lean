import FieldTrace.Hierarchy.CallTree
import FieldTrace.Terminal.Glyph
import FieldTrace.Terminal.Line
import FieldTrace.Terminal.Markup

/-! # Call trees as text

One line for each node, with guides that join it to its parent: the tag of its category, its label
and its place. -/

namespace FieldTrace.Terminal

/-- The tag of a category. -/
def tag : Category → String
  | .root => "FIELD"
  | .entryPoint => "ENTRY"
  | .service => "SERVICE"
  | .dataAccess => "DATA"
  | .accessorGet => "GET"
  | .accessorSet => "SET"
  | .constructor => "NEW"
  | .plain => "CALL"
  | .mapping => "MAP"

/-- A text filled up with blanks to a width. -/
def padTo (width : Nat) (cs : List Char) : List Char := cs ++ blanks (width - cs.length)

/-- The text of a node; with `ascii`, its label without glyphs. -/
def nodeText (ascii : Bool) (n : CallNode) : String :=
  String.ofList (padTo 7 (tag n.category).toList) ++ " "
    ++ literal (if ascii then sanitize n.label else n.label)
    ++ (match n.location with
      | some l => " " ++ literal l.text
      | none => "")

/-- The texts of a call tree. -/
def viewTree (ascii : Bool) (t : CallTree) : Rose String := Rose.relabel (nodeText ascii) t

/-- The lines of a node beside a guide; there are none if the guide fills the screen. -/
def nodeLines (guide : List Char) (s : String) : List (List Char) :=
  let width := screenWidth - guide.length
  if width = 0 then [] else (linesOf s).flatMap (wrapLine width)

/-- The lines of a node: the first after one guide, the others after another. -/
def guided (first others : List Char) (s : String) : List (List Char) :=
  match nodeLines first s with
  | [] => []
  | l :: ls => (first ++ l) :: ls.map (fun l => others ++ l)

mutual

/-- The lines below a node, each after the guide of the node. -/
def childLines (guide : List Char) : List (Rose String) → List (List Char)
  | [] => []
  | t :: ts =>
    let last := ts.isEmpty
    let branch := if last then "└── " else "├── "
    let through := if last then "    " else "│   "
    treeLines (guide ++ branch.toList) (guide ++ through.toList) t ++ childLines guide ts

/-- The lines of a tree: its first line after one guide, all others after another. -/
def treeLines (first others : List Char) : Rose String → List (List Char)
  | .node s cs => guided first others s ++ childLines others cs

end

/-- A call tree as text. -/
def renderTree (ascii : Bool) (t : CallTree) : String := textOf (treeLines [] [] (viewTree ascii t))

end FieldTrace.Terminal
