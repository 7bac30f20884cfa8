import FieldTrace.Terminal.Wrap

/-! # Lines of output

Texts are laid out in lines on a screen, which has `screenWidth` columns. Bells, backspaces,
vertical tabs, form feeds and carriage returns are not shown, and tabs reach to the next multiple of
eight columns. -/

namespace FieldTrace.Terminal

/-- Control characters that are not shown. -/
def isHidden (c : Char) : Bool :=
  c.toNat = 7 || c.toNat = 8 || c.toNat = 11 || c.toNat = 12 || c.toNat = 13

/-- The parts of a line between its tabs, from a given column on, with the tabs expanded. -/
def expandParts (column : Nat) : List (List Char) → List Char
  | [] => []
  | [part] => part
  | part :: parts =>
    let before := part ++ [' ']
    let reached := column + cells before
    let gap := (8 - reached % 8) % 8
    before ++ blanks gap ++ expandParts (reached + gap) parts

/-- A line with its tabs expanded. -/
def expandTabs (line : List Char) : List Char := expandParts 0 (line.splitOn '\t')

/-- The characters of a text that are shown. -/
def visible (s : String) : List Char := s.toList.filter (fun c => !isHidden c)

/-- The lines of a text as they are shown. -/
def linesOf (s : String) : List (List Char) := ((visible s).splitOn '\n').map expandTabs

/-- The text of lines, each of them ended. -/
def textOf (lines : List (List Char)) : String :=
  String.ofList (lines.flatMap (fun l => l ++ ['\n']))

/-- The number of columns of the screen. -/
def screenWidth : Nat := 400

/-- A text as it is printed on a screen of a width. -/
def printedWithin (width : Nat) (s : String) : String :=
  textOf ((linesOf s).flatMap (wrapLine width))

/-- A text as it is printed. -/
def printed (s : String) : String := printedWithin screenWidth s

end FieldTrace.Terminal
