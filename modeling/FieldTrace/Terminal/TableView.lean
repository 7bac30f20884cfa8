import FieldTrace.Mapping.Site
import FieldTrace.Terminal.Line
import FieldTrace.Terminal.Markup
import FieldTrace.Total

/-! # Tables as text

A table has a centred title, a header between heavy lines, and rows between light ones. Every column
is as wide as its widest cell, with a blank on either side. Titles and cells that are too wide for
their place are broken between words. -/

namespace FieldTrace.Terminal

/-- A table of texts. -/
structure TextTable where
  title : String
  header : List String
  rows : List (List String)

/-- The lines of a title over a table of a width. -/
def titleLines (width : Nat) (title : String) : List (List Char) :=
  (linesOf title).flatMap (fun l => (breakLine true width l).map (centre width))

/-! ### Rows and rules -/

/-- The characters of a rule: left end, line, joint and right end. -/
structure Rule where
  left : Char
  line : Char
  joint : Char
  right : Char

/-- A rule across columns of given widths. -/
def Rule.draw (r : Rule) (widths : List Nat) : List Char :=
  r.left :: [r.joint].intercalate (widths.map (fun w => List.replicate (w + 2) r.line)) ++ [r.right]

/-- The cells of one line, separated by a bar. -/
def cellLine (bar : Char) (widths : List Nat) (row : List (List Char)) : List Char :=
  bar :: (widths.zip row).flatMap (fun p => ' ' :: fitLeft p.1 p.2 ++ [' ', bar])

/-- The lines of a cell in a column of a width. -/
def cellLines (width : Nat) (s : String) : List (List Char) :=
  (linesOf s).flatMap (fun l => (breakLine false width l).map (dropExcess width))

/-- The lines of a row, which is as high as its highest cell. -/
def rowLines (bar : Char) (widths : List Nat) (row : List String) : List (List Char) :=
  let lines := List.zipWith cellLines widths row
  let height := ((lines.map List.length).max?).getD 0
  (List.range height).map (fun i => cellLine bar widths (lines.map (fun ls => ls.getD i [])))

/-- Does the character separate lines when a cell is measured? -/
def separatesLines (c : Char) : Bool :=
  c = '\n' || (28 ≤ c.toNat && c.toNat ≤ 30) || c.toNat = 0x85 || c.toNat = 0x2028
    || c.toNat = 0x2029

/-- The width that a cell asks for: that of its widest line, in which tabs do not count. -/
def measure (s : String) : Nat :=
  ((((visible s).splitOnP separatesLines).map cells).max?).getD 0

/-! ### Widths of columns -/

/-- A quotient rounded to the nearest number, and to the even one of two. -/
def roundQuotient (n d : Nat) : Nat :=
  let down := n / d
  let twice := 2 * (n % d)
  if twice < d || (twice = d && down % 2 = 0) then down else down + 1

/-- Take `excess` cells from `count` columns of a width, in even parts of at most `most` cells. -/
def narrow (widest most excess count : Nat) : List Nat → List Nat
  | [] => []
  | w :: ws =>
    if w = widest then
      let part := min most (roundQuotient excess count)
      (w - part) :: narrow widest most (excess - part) (count - 1) ws
    else w :: narrow widest most excess count ws

/-- Narrow the widest columns, in at most `count` rounds, until all of them fit into a room. -/
def collapse (room : Nat) : Nat → List Nat → List Nat
  | 0, ws => ws
  | count + 1, ws =>
    let excess := total ws - room
    if excess = 0 then ws
    else
      let widest := (ws.max?).getD 0
      let next := ((ws.filter (fun w => w ≠ widest)).max?).getD 0
      let affected := (ws.filter (fun w => w = widest)).length
      collapse room count (narrow widest (min excess (widest - next)) excess affected ws)

namespace TextTable

variable (t : TextTable)

/-- The widths that the columns ask for. -/
def wishes : List Nat :=
  t.rows.foldl (fun ws row => List.zipWith max ws (row.map measure)) (t.header.map measure)

/-- The widths of the columns. Together with a blank on either side of every cell and the lines
between them, they fit on the screen. -/
def widths : List Nat :=
  let room := screenWidth - (t.header.length + 1)
  let padded := t.wishes.map (fun w => min (w + 2) room)
  (collapse room (total padded) padded).map (fun w => w - 2)

/-- The width of the table. -/
def width : Nat := total (t.widths.map (fun w => w + 3)) + 1

/-- The lines of the table. -/
def lines : List (List Char) :=
  titleLines t.width t.title
    ++ [Rule.draw ⟨'┏', '━', '┳', '┓'⟩ t.widths]
    ++ rowLines '┃' t.widths t.header
    ++ [Rule.draw ⟨'┡', '━', '╇', '┩'⟩ t.widths]
    ++ t.rows.flatMap (rowLines '│' t.widths)
    ++ [Rule.draw ⟨'└', '─', '┴', '┘'⟩ t.widths]

/-- The table as text. -/
def render : String := textOf t.lines

end TextTable

/-! ### The tables of an analysis -/

/-- The table of relations, in order. -/
def relationTable (title : String) (relations : List MappingRelation) : TextTable where
  title := title
  header := ["Kind", "Source", "Target"]
  rows := (stableSort MappingRelation.lt relations).map
    (fun r => [r.kind.text, literal r.source.text, literal r.target.text])

/-- The table of mapping sites as they are given. -/
def siteTable (title : String) (sites : List MappingSite) : TextTable where
  title := title
  header := ["Method", "Source", "Target", "Location"]
  rows := sites.map (fun s =>
    [s.declaring.signature, s.source, s.target, s.location.text].map literal)

/-- The title of a table of relations. -/
def relationTitle : String := "Mapping Relations"

/-- The title of a table of sites. -/
def siteTitle : String := "Mapping Sites"

end FieldTrace.Terminal
